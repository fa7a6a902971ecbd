import TenantLibrary.FairQueue.Accounting
import TenantLibrary.JobQueue.Payload

/-!
The texts on the queues, end to end.

In a run in which producers enqueue jobs, no `send_task` raises and dispatches do not
overlap (the fair queue's model has one dispatcher), the worker is called for the jobs of a
tenant in the order of their enqueues, each with its own row's values (`called_in_order`).
Two dispatches that overlap, which an expired lock allows, can send a later payload first.
-/

namespace TenantLibrary.JobQueue

open TenantLibrary.Lib TenantLibrary.Lib.Json TenantLibrary.Store TenantLibrary.FairQueue

/-! ### Runs of the queue with these texts -/

/-- What can happen; every enqueue is a producer's. -/
inductive WireAction where
  | produce (job : StoredJob)
  | dispatch
  | sendRaises
  | publish (payload : Payload Dict)
  | consume
  | lockExpires

def WireAction.toAction : WireAction → FairQueue.Action Dict
  | .produce job => .enqueue (uuidText job.row.tenantId) ingestWorksName (ingestKwargs job.row)
  | .dispatch => .dispatch
  | .sendRaises => .sendRaises
  | .publish payload => .publish payload
  | .consume => .consume
  | .lockExpires => .lockExpires

def wireStep (w : World Dict) (a : WireAction) : Option (World Dict) :=
  FairQueue.step wireCodec w a.toAction

/-- The job enqueued by this step for this tenant. -/
def WireAction.jobFor (tenantId : Uuid) : WireAction → Option StoredJob
  | .produce job => if job.row.tenantId = tenantId then some job else none
  | _ => none

/-- The jobs enqueued for a tenant, in order. -/
def jobsFor (tenantId : Uuid) (as : List WireAction) : List StoredJob :=
  as.filterMap (WireAction.jobFor tenantId)

theorem enqueued_wireStep {w t : World Dict} {a : WireAction} (stepped : wireStep w a = some t)
    {tenantId : Uuid} (fits : tenantId < uuidBound) :
    t.enqueued (uuidText tenantId) = w.enqueued (uuidText tenantId) ++
      (a.jobFor tenantId).toList.map fun job => payloadOf job.row := by
  cases a with
  | produce job =>
      obtain rfl := Option.some.inj stepped
      by_cases same : job.row.tenantId = tenantId
      · subst same
        simp [WireAction.jobFor, payloadOf]
      · have apart : uuidText tenantId ≠ uuidText job.row.tenantId := fun texts =>
          same ((uuidText_inj job.tenantId_fits fits).mp texts.symm)
        simp [WireAction.jobFor, same, Function.update_of_ne apart]
  | dispatch =>
      obtain rfl := Option.some.inj stepped
      have same : (dispatchStep wireCodec w).enqueued = w.enqueued := by
        unfold dispatchStep
        dsimp only
        (repeat' split) <;> rfl
      simp [WireAction.jobFor, same]
  | sendRaises =>
      obtain ⟨_, _, _, _, _, _, rfl⟩ := sendRaises_eq_some stepped
      simp [WireAction.jobFor]
  | consume =>
      obtain ⟨_, _, _, rfl⟩ := consume_eq_some stepped
      simp [WireAction.jobFor]
  | publish | lockExpires =>
      obtain rfl := Option.some.inj stepped
      simp [WireAction.jobFor]

theorem enqueued_wireRun {as : List WireAction} {w : World Dict}
    (run : Run (Steps wireStep) World.empty as w) {tenantId : Uuid} (fits : tenantId < uuidBound) :
    w.enqueued (uuidText tenantId) = (jobsFor tenantId as).map fun job => payloadOf job.row := by
  refine run.invariant_trace
    (fun as w => w.enqueued (uuidText tenantId) =
      (jobsFor tenantId as).map fun job => payloadOf job.row) ?_ rfl
  intro before s a t held stepped
  have last : jobsFor tenantId [a] = (a.jobFor tenantId).toList := by
    simp only [jobsFor, List.filterMap_cons, List.filterMap_nil]
    cases a.jobFor tenantId <;> rfl
  rw [enqueued_wireStep stepped fits, held, ← last, jobsFor, jobsFor, jobsFor,
    List.filterMap_append, List.map_append]

/-- A run of the wire is a run of the queue. -/
theorem queue_run {as : List WireAction} {s w : World Dict} (run : Run (Steps wireStep) s as w) :
    Run (Steps (FairQueue.step wireCodec)) s (as.map WireAction.toAction) w := by
  induction run with
  | nil s => exact .nil s
  | cons stepped _ ih => exact .cons stepped ih

/-- The texts on a list are printable ASCII, whatever the jobs search for. -/
theorem printable_texts {as : List WireAction} {w : World Dict}
    (run : Run (Steps wireStep) World.empty as w) (tenantId : String) :
    ∀ raw ∈ w.queue tenantId, ∀ c ∈ raw.toList, Printable c := by
  obtain ⟨waiting, texts, -⟩ := accounted_run (queue_run run) tenantId
  intro raw mem c inside
  rw [texts] at mem
  obtain ⟨payload, -, rfl⟩ := List.mem_map.mp mem
  exact printable_dumps _ c (by simpa [wireCodec] using inside)

/-- Whatever the interleaving of dispatches that do not overlap with everything else, when no
`send_task` has raised and no dispatch is in progress: the calls the messages accepted for a
tenant lead to, and after them those of the texts still on its list, are the tenant's enqueued
jobs in order, each with its row's own values; and the texts are printable ASCII. -/
theorem called_in_order {as : List WireAction} {w : World Dict}
    (run : Run (Steps wireStep) World.empty as w) (idle : w.dispatcher = .idle)
    (none_raised : .sendRaises ∉ as) {tenantId : Uuid} (fits : tenantId < uuidBound) :
    (w.accepted (uuidText tenantId)).map callOf ++
        (w.queue (uuidText tenantId)).map (fun raw => (wireCodec.loads raw).bind callOf) =
      (jobsFor tenantId as).map (fun job => some (argumentsOf job.row)) ∧
    ∀ raw ∈ w.queue (uuidText tenantId), ∀ c ∈ raw.toList, Printable c := by
  refine ⟨?_, printable_texts run _⟩
  have queueRun := queue_run run
  have delivered : w.undelivered (uuidText tenantId) = [] := by
    refine (undelivered_run queueRun).mpr (fun raised => ?_) _
    obtain ⟨a, mem, is⟩ := List.mem_map.mp raised
    cases a <;> simp [WireAction.toAction] at is
    exact none_raised mem
  have once := ((accounted_run queueRun _).exactlyOnce_iff idle).mpr delivered
  have each (job : StoredJob) : callOf (payloadOf job.row) = some (argumentsOf job.row) :=
    ingestWorks_stored job
  calc (w.accepted (uuidText tenantId)).map callOf ++
        (w.queue (uuidText tenantId)).map (fun raw => (wireCodec.loads raw).bind callOf)
      = ((w.accepted (uuidText tenantId)).map some ++
          (w.queue (uuidText tenantId)).map wireCodec.loads).map (·.bind callOf) := by
        rw [List.map_append, List.map_map, List.map_map]
        rfl
    _ = ((w.enqueued (uuidText tenantId)).map some).map (·.bind callOf) := by rw [once]
    _ = ((jobsFor tenantId as).map fun job => payloadOf job.row).map callOf := by
        rw [enqueued_wireRun run fits, List.map_map]
        rfl
    _ = (jobsFor tenantId as).map fun job => some (argumentsOf job.row) := by
        rw [List.map_map]
        exact List.map_congr_left fun job _ => each job

/-- A job whose search text needs escapes. -/
def queuedJob : StoredJob where
  row :=
    { id := 255, tenantId := 7, celeryTaskId := none, queryType := .author
      queryValue := "Émile \"Zola\"", limit := 50, status := .queued, progress := none
      errorMessage := none }
  id_fits := by decide
  tenantId_fits := by decide

theorem queued_jobs_called_in_order :
    ∃ w, exec wireStep World.empty [.produce queuedJob, .produce queuedJob] = some w ∧
      (w.accepted (uuidText 7)).map callOf ++
          (w.queue (uuidText 7)).map (fun raw => (wireCodec.loads raw).bind callOf) =
        (jobsFor 7 [.produce queuedJob, .produce queuedJob]).map (fun job =>
          some (argumentsOf job.row)) ∧
      ∀ raw ∈ w.queue (uuidText 7), ∀ c ∈ raw.toList, Printable c :=
  ⟨_, rfl, called_in_order (run_of_exec rfl) rfl (by simp) (by decide)⟩

end TenantLibrary.JobQueue
