import TenantLibrary.FairQueue.Accounting
import TenantLibrary.JobQueue.System

/-!
The job table and the queues agree.

A payload should name a committed job, and a committed job that is still queued should
have its payload somewhere on the way to a worker. `jobs_agree` proves both in every
state of every run in which no refresh enqueues a payload before its commit, no trigger
fails between its commit and its enqueue, and no `send_task` raises. The counterexamples
are these three steps.
-/

namespace TenantLibrary.JobQueue

open TenantLibrary.Lib TenantLibrary.Store TenantLibrary.FairQueue

variable {codec : Codec Dict}

/-! ### The property -/

/-- The job a payload names. -/
def jobOf (payload : Payload Dict) : Option Uuid := (callOf payload).map JobKwargs.jobId

theorem jobOf_payloadOf {job : IngestionJob} (fits : job.id < uuidBound) :
    jobOf (payloadOf job) = some job.id := by
  rw [jobOf, callOf, payloadOf, ingestWorks_ingestKwargs, Nat.mod_eq_of_lt fits]
  rfl

/-- The payload's job is committed. -/
def Named (s : System) (payload : Payload Dict) : Prop :=
  ∃ job ∈ s.jobs.rows, jobOf payload = some job.id

/-- The payload was put into a tenant queue or sent to Celery. -/
def Placed (s : System) (payload : Payload Dict) : Prop :=
  (∃ tenantId, payload ∈ s.world.enqueued tenantId) ∨
    (∃ tenantId, payload ∈ s.world.accepted tenantId) ∨ payload ∈ s.world.celery

/-- The payload is in a tenant queue, in the Celery queue, or in the hands of a worker,
one that dispatches or one that ingests. -/
def Waiting (codec : Codec Dict) (s : System) (payload : Payload Dict) : Prop :=
  (∃ tenantId, codec.dumps payload ∈ s.world.queue tenantId) ∨ payload ∈ s.world.celery ∨
    (∃ d tenantId, payload ∈ (s.dispatchers d).inHand tenantId) ∨
    ∃ k, payload ∈ (s.workers k).inHand

structure Agrees (codec : Codec Dict) (s : System) : Prop where
  named : ∀ payload, Placed s payload → Named s payload
  waiting : ∀ job ∈ s.jobs.rows, job.status = .queued →
    (∀ k, s.producers k ≠ .triggered job) → Waiting codec s (payloadOf job)

/-- The steps that keep the two sides together: no refresh enqueues the payload of a job
it has not committed, no trigger fails after its commit, and no `send_task` raises. -/
def safe (s : System) : Action → Bool
  | .produce k _ =>
      match s.producers k with
      | .flushed .. => false
      | _ => true
  | .producerFails k =>
      match s.producers k with
      | .triggered _ => false
      | _ => true
  | .sendRaises _ => false
  | _ => true

/-! ### Where a dispatcher's command moves a payload -/

/-- What one command of a dispatcher does to the payloads. -/
inductive Moved (codec : Codec Dict) (w t : World Dict) : Prop where
  | quiet (queue : ∀ u, t.queue u = w.queue u) (celery : t.celery = w.celery)
      (accepted : t.accepted = w.accepted) (before : ∀ u, w.dispatcher.inHand u = [])
      (after : ∀ u, t.dispatcher.inHand u = [])
  | popped (tenantId : String) (payload : Payload Dict) (rest : List String)
      (head : w.queue tenantId = codec.dumps payload :: rest)
      (queue : ∀ u, t.queue u = if u = tenantId then rest else w.queue u)
      (celery : t.celery = w.celery) (accepted : t.accepted = w.accepted)
      (before : ∀ u, w.dispatcher.inHand u = [])
      (after : ∀ u, t.dispatcher.inHand u = if tenantId = u then [payload] else [])
  | sent (tenantId : String) (payload : Payload Dict) (queue : ∀ u, t.queue u = w.queue u)
      (celery : t.celery = w.celery ++ [payload])
      (accepted : ∀ u, t.accepted u =
        if u = tenantId then w.accepted u ++ [payload] else w.accepted u)
      (before : ∀ u, w.dispatcher.inHand u = if tenantId = u then [payload] else [])
      (after : ∀ u, t.dispatcher.inHand u = [])

/-- Every entry of the tenant queues is the text of a payload. -/
def Texts (codec : Codec Dict) (w : World Dict) : Prop :=
  ∀ u, ∀ text ∈ w.queue u, ∃ payload, text = codec.dumps payload

theorem dispatchStep_moved {w : World Dict} (texts : Texts codec w) :
    Moved codec w (dispatchStep codec w) := by
  cases pc : w.dispatcher with
  | lpop slots dispatched tenantId rest =>
      have before : ∀ u, w.dispatcher.inHand u = [] := fun u => by rw [pc]; rfl
      cases queue : w.redis.lists (queueKey tenantId) with
      | nil =>
          simp only [dispatchStep, pc, Redis.lpop_nil _ _ queue]
          exact .quiet (fun _ => rfl) rfl rfl before fun _ => rfl
      | cons text tail =>
          obtain ⟨payload, rfl⟩ := texts tenantId text (by rw [World.queue, queue]; simp)
          simp only [dispatchStep, pc, Redis.lpop_cons _ _ _ queue, codec.loads_dumps]
          refine .popped tenantId payload tail queue (fun u => ?_) rfl rfl before fun _ => rfl
          by_cases same : u = tenantId <;> simp [World.queue, same]
  | sendTask slots dispatched tenantId payload rest =>
      have before : ∀ u, w.dispatcher.inHand u = if tenantId = u then [payload] else [] :=
        fun u => by rw [pc]; rfl
      simp only [dispatchStep, pc]
      refine .sent tenantId payload (fun _ => rfl) rfl (fun u => ?_) before fun _ => rfl
      by_cases same : u = tenantId
      · subst same
        simp
      · simp [same]
  | idle =>
      have before : ∀ u, w.dispatcher.inHand u = [] := fun u => by rw [pc]; rfl
      simp only [dispatchStep, pc]
      split
      · exact .quiet (fun _ => rfl) rfl rfl before before
      · rename_i r set
        have lists : r.lists = w.redis.lists := by
          have := Redis.setNx_lists w.redis dispatchLockKey "1"
          rwa [set] at this
        exact .quiet (fun u => by simp [World.queue, lists]) rfl rfl before fun _ => rfl
  | llenCelery =>
      have before : ∀ u, w.dispatcher.inHand u = [] := fun u => by rw [pc]; rfl
      simp only [dispatchStep, pc]
      split <;> exact .quiet (fun _ => rfl) rfl rfl before fun _ => rfl
  | smembers slots =>
      have before : ∀ u, w.dispatcher.inHand u = [] := fun u => by rw [pc]; rfl
      simp only [dispatchStep, pc]
      exact .quiet (fun _ => rfl) rfl rfl before fun _ => inHand_nextTenant ..
  | sremEmpty slots dispatched tenantId rest =>
      have before : ∀ u, w.dispatcher.inHand u = [] := fun u => by rw [pc]; rfl
      simp only [dispatchStep, pc]
      exact .quiet (fun _ => rfl) rfl rfl before fun _ => inHand_nextTenant ..
  | llenTenant slots dispatched tenantId rest =>
      have before : ∀ u, w.dispatcher.inHand u = [] := fun u => by rw [pc]; rfl
      simp only [dispatchStep, pc]
      split
      · exact .quiet (fun _ => rfl) rfl rfl before fun _ => rfl
      · exact .quiet (fun _ => rfl) rfl rfl before fun _ => inHand_nextTenant ..
  | sremDrained slots dispatched tenantId rest =>
      have before : ∀ u, w.dispatcher.inHand u = [] := fun u => by rw [pc]; rfl
      simp only [dispatchStep, pc]
      exact .quiet (fun _ => rfl) rfl rfl before fun _ => inHand_nextTenant ..
  | release result =>
      have before : ∀ u, w.dispatcher.inHand u = [] := fun u => by rw [pc]; rfl
      simp only [dispatchStep, pc]
      exact .quiet (fun _ => rfl) rfl rfl before fun _ => rfl

theorem dispatchStep_enqueued (w : World Dict) :
    (dispatchStep codec w).enqueued = w.enqueued := by
  unfold dispatchStep
  dsimp only
  (repeat' split) <;> rfl

/-! ### The invariant -/

/-- What every safe run keeps. A payload in a worker's hands names a committed job that
is no longer queued; a refresh at the head of its loop has inserted nothing. -/
structure Inv (codec : Codec Dict) (s : System) : Prop where
  texts : Texts codec s.world
  ids : ∀ job ∈ s.jobs.rows, job.id < uuidBound
  placed : ∀ payload, Placed s payload → Named s payload
  located : ∀ payload, Waiting codec s payload → Named s payload
  triggered : ∀ k job, s.producers k = .triggered job → Named s (payloadOf job)
  refreshing : ∀ k rest inserted, s.producers k = .refreshing rest inserted → inserted = []
  ingesting : ∀ k payload jobId, s.workers k = .ingesting payload jobId →
    jobOf payload = some jobId ∧ ∀ job ∈ s.jobs.rows, job.id = jobId → job.status ≠ .queued
  waiting : ∀ job ∈ s.jobs.rows, job.status = .queued →
    (∀ k, s.producers k ≠ .triggered job) → Waiting codec s (payloadOf job)

theorem Inv.agrees {s : System} (h : Inv codec s) : Agrees codec s := ⟨h.placed, h.waiting⟩

theorem inv_empty : Inv codec System.empty where
  texts u text mem := by simp [System.empty, World.empty, World.queue, Redis.empty] at mem
  ids job mem := by simp [System.empty, Table.empty] at mem
  placed payload placed := by simp [Placed, System.empty, World.empty] at placed
  located payload waiting := by
    simp [Waiting, System.empty, World.empty, World.queue, Redis.empty, Dispatcher.inHand,
      Worker.inHand] at waiting
  triggered k job same := by cases same
  refreshing k rest inserted same := by cases same
  ingesting k payload jobId same := by cases same
  waiting job mem := by simp [System.empty, Table.empty] at mem

section Step

variable {s t : System} {k : Nat}

/-- A committed row stays. -/
theorem Named.mono {payload : Payload Dict} (named : Named s payload)
    (ids : ∀ job ∈ s.jobs.rows, ∃ kept ∈ t.jobs.rows, kept.id = job.id) : Named t payload := by
  obtain ⟨job, mem, same⟩ := named
  obtain ⟨kept, keptMem, keptSame⟩ := ids job mem
  exact ⟨kept, keptMem, same.trans (congrArg some keptSame.symm)⟩

theorem ids_setStatus (id : Uuid) (status : Status) (jobs : Table IngestionJob IngestionJob.Clash) :
    ∀ job ∈ jobs.rows, ∃ kept ∈ (setStatus id status jobs).rows, kept.id = job.id := by
  intro job mem
  exact ⟨withStatus id status job, List.mem_map_of_mem mem, withStatus_id ..⟩

/-- A producer changes its state. It leaves a committed job alone only when the payload
is on its way, and takes up only a committed one. -/
theorem Inv.setProducer (h : Inv codec s) {producer : Producer}
    (left : ∀ job, s.producers k = .triggered job → Waiting codec s (payloadOf job))
    (taken : ∀ job, producer = .triggered job → Named s (payloadOf job))
    (clean : ∀ rest inserted, producer = .refreshing rest inserted → inserted = []) :
    Inv codec (s.setProducer k producer) where
  texts := h.texts
  ids := h.ids
  placed := h.placed
  located := h.located
  triggered k' job same := by
    by_cases this : k' = k
    · subst this
      rw [System.producers_setProducer] at same
      exact taken job same
    · rw [System.producers_setProducer_of_ne _ _ this] at same
      exact h.triggered k' job same
  refreshing k' rest inserted same := by
    by_cases this : k' = k
    · subst this
      rw [System.producers_setProducer] at same
      exact clean rest inserted same
    · rw [System.producers_setProducer_of_ne _ _ this] at same
      exact h.refreshing k' rest inserted same
  ingesting := h.ingesting
  waiting job mem queued free := by
    by_cases own : s.producers k = .triggered job
    · exact left job own
    · apply h.waiting job mem queued
      intro k'
      by_cases this : k' = k
      · rwa [this]
      · have other := free k'
        rwa [System.producers_setProducer_of_ne _ _ this] at other

/-- The commit of a trigger. -/
theorem inv_triggering (h : Inv codec s) {query : IngestionQuery} {limit : Nat} {newId : Uuid}
    (fits : newId < uuidBound) {jobs : Table IngestionJob IngestionJob.Clash}
    (stands : s.producers k = .triggering query limit)
    (inserted : s.jobs.insert (newJob newId query limit) = some jobs) :
    Inv codec ({ s with jobs }.setProducer k (.triggered (newJob newId query limit))) := by
  obtain ⟨fresh, rows⟩ := Table.insert_eq_some.mp inserted
  have kept : ∀ job ∈ s.jobs.rows, ∃ later ∈ jobs.rows, later.id = job.id := fun job mem =>
    ⟨job, rows ▸ List.mem_append_left _ mem, rfl⟩
  refine ⟨h.texts, fun job mem => ?_, fun p placed => (h.placed p placed).mono kept,
    fun p waiting => (h.located p waiting).mono kept, fun k' job same => ?_,
    fun k' rest flushed same => ?_, fun k' p jobId same => ?_, fun job mem queued free => ?_⟩
  · change job ∈ jobs.rows at mem
    rw [rows] at mem
    rcases List.mem_append.mp mem with old | new
    · exact h.ids job old
    · obtain rfl := List.mem_singleton.mp new
      exact fits
  · by_cases this : k' = k
    · subst this
      rw [System.producers_setProducer] at same
      obtain rfl := Producer.triggered.inj same
      exact ⟨_, rows ▸ List.mem_append_right _ (List.mem_singleton_self _), jobOf_payloadOf fits⟩
    · rw [System.producers_setProducer_of_ne _ _ this] at same
      exact (h.triggered k' job same).mono kept
  · by_cases this : k' = k
    · subst this
      rw [System.producers_setProducer] at same
      cases same
    · rw [System.producers_setProducer_of_ne _ _ this] at same
      exact h.refreshing k' rest flushed same
  · obtain ⟨names, marked⟩ := h.ingesting k' p jobId same
    refine ⟨names, fun job mem isJob => ?_⟩
    change job ∈ jobs.rows at mem
    rw [rows] at mem
    rcases List.mem_append.mp mem with old | new
    · exact marked job old isJob
    · -- the payload in hand names a row committed before, so the new id is another
      obtain rfl := List.mem_singleton.mp new
      have inHand : Waiting codec s p :=
        .inr (.inr (.inr ⟨k', by
          rw [show s.workers k' = .ingesting p jobId from same]
          exact List.mem_singleton_self _⟩))
      obtain ⟨row, rowMem, rowNames⟩ := h.located p inHand
      have sameId : row.id = jobId := Option.some.inj (rowNames.symm.trans names)
      exact absurd (sameId.trans isJob.symm) (fresh row rowMem)
  · change job ∈ jobs.rows at mem
    rw [rows] at mem
    rcases List.mem_append.mp mem with old | new
    · apply h.waiting job old queued
      intro k'
      by_cases this : k' = k
      · rw [this, stands]
        exact fun other => nomatch other
      · have other := free k'
        rwa [System.producers_setProducer_of_ne _ _ this] at other
    · obtain rfl := List.mem_singleton.mp new
      exact absurd (System.producers_setProducer ..) (free k)

theorem queue_enqueueJob (world : World Dict) (job : IngestionJob) (u : String) :
    (enqueueJob codec world job).queue u =
      if u = uuidText job.tenantId then world.queue u ++ [codec.dumps (payloadOf job)]
      else world.queue u := by
  simp only [World.queue, enqueueJob, enqueueTask, Redis.sadd_lists, Redis.rpush_lists,
    Function.update_apply, queueKey_inj, payloadOf]
  split
  case isTrue same => rw [same]
  case isFalse => rfl

theorem enqueued_enqueueJob (world : World Dict) (job : IngestionJob) (u : String) :
    (enqueueJob codec world job).enqueued u =
      if u = uuidText job.tenantId then world.enqueued u ++ [payloadOf job]
      else world.enqueued u := by
  simp only [enqueueJob, Function.update_apply]
  split
  case isTrue same => rw [same]
  case isFalse => rfl

theorem dumps_inj {p q : Payload Dict} (same : codec.dumps p = codec.dumps q) : p = q := by
  have loaded := congrArg codec.loads same
  simpa using loaded

/-- The payload of a committed job is enqueued. -/
theorem Inv.enqueue (h : Inv codec s) {job : IngestionJob} (named : Named s (payloadOf job)) :
    Inv codec { s with world := enqueueJob codec s.world job } := by
  refine ⟨fun u text mem => ?_, h.ids, fun p placed => ?_, fun p waiting => ?_, h.triggered,
    h.refreshing, h.ingesting, fun row mem queued free => ?_⟩
  · rw [queue_enqueueJob] at mem
    split at mem
    · rcases List.mem_append.mp mem with old | new
      · exact h.texts u text old
      · exact ⟨_, List.mem_singleton.mp new⟩
    · exact h.texts u text mem
  · rcases placed with ⟨u, mem⟩ | elsewhere
    · rw [enqueued_enqueueJob] at mem
      split at mem
      · rcases List.mem_append.mp mem with old | new
        · exact h.placed p (.inl ⟨u, old⟩)
        · obtain rfl := List.mem_singleton.mp new
          exact named
      · exact h.placed p (.inl ⟨u, mem⟩)
    · exact h.placed p (.inr elsewhere)
  · rcases waiting with ⟨u, mem⟩ | elsewhere
    · rw [queue_enqueueJob] at mem
      split at mem
      · rcases List.mem_append.mp mem with old | new
        · exact h.located p (.inl ⟨u, old⟩)
        · obtain rfl := dumps_inj (List.mem_singleton.mp new)
          exact named
      · exact h.located p (.inl ⟨u, mem⟩)
    · exact h.located p (.inr elsewhere)
  · rcases h.waiting row mem queued free with ⟨u, old⟩ | elsewhere
    · refine .inl ⟨u, ?_⟩
      rw [queue_enqueueJob]
      split
      · exact List.mem_append_left _ old
      · exact old
    · exact .inr elsewhere

theorem waiting_enqueueJob (s : System) (job : IngestionJob) :
    Waiting codec { s with world := enqueueJob codec s.world job } (payloadOf job) := by
  refine .inl ⟨uuidText job.tenantId, ?_⟩
  rw [queue_enqueueJob, if_pos rfl]
  exact List.mem_append_right _ (List.mem_singleton_self _)

/-- Every safe step of a producer. -/
theorem inv_produce (h : Inv codec s) {newId : Uuid} (fits : newId < uuidBound)
    (safely : safe s (.produce k newId) = true) (stepped : produce codec s k newId = some t) :
    Inv codec t := by
  unfold produce at stepped
  cases stands : s.producers k with
  | idle =>
      rw [stands] at stepped
      cases stepped
  | triggering query limit =>
      simp only [stands] at stepped
      split at stepped
      · obtain rfl := Option.some.inj stepped
        exact h.setProducer (by simp [stands]) (by simp) (by simp)
      case h_2 jobs inserted =>
        obtain rfl := Option.some.inj stepped
        exact inv_triggering h fits stands inserted
  | triggered job =>
      simp only [stands, Option.some.injEq] at stepped
      subst stepped
      refine (h.enqueue (h.triggered k job stands)).setProducer ?_ (by simp) (by simp)
      intro own same
      obtain rfl := Producer.triggered.inj (stands.symm.trans same)
      exact waiting_enqueueJob s job
  | refreshing rest inserted =>
      obtain rfl := h.refreshing k rest inserted stands
      cases rest with
      | nil =>
          simp only [stands, insertAll, List.foldlM_nil] at stepped
          obtain rfl := Option.some.inj stepped
          exact h.setProducer (by simp [stands]) (by simp) (by simp)
      | cons query rest =>
          simp only [stands] at stepped
          split at stepped <;>
          · obtain rfl := Option.some.inj stepped
            exact h.setProducer (by simp [stands]) (by simp) (by simp)
  | flushed job rest inserted =>
      simp [safe, stands] at safely

/-! ### Dispatchers -/

/-- A payload is in the hand of one dispatcher or of another. -/
theorem hand_split (dispatchers : Nat → Dispatcher Dict) (d : Nat) (p : Payload Dict) :
    (∃ d' u, p ∈ (dispatchers d').inHand u) ↔
      (∃ u, p ∈ (dispatchers d).inHand u) ∨
        ∃ d', d' ≠ d ∧ ∃ u, p ∈ (dispatchers d').inHand u := by
  constructor
  · rintro ⟨d', u, mem⟩
    by_cases this : d' = d
    · exact .inl ⟨u, this ▸ mem⟩
    · exact .inr ⟨d', this, u, mem⟩
  · rintro (⟨u, mem⟩ | ⟨d', _, u, mem⟩)
    · exact ⟨d, u, mem⟩
    · exact ⟨d', u, mem⟩

theorem dispatchers_dispatch (s : System) (d : Nat) :
    (dispatch codec s d).dispatchers d = (dispatchStep codec (asSeen s d)).dispatcher :=
  Function.update_self ..

theorem others_dispatch (s : System) (d : Nat) (p : Payload Dict) :
    (∃ d', d' ≠ d ∧ ∃ u, p ∈ ((dispatch codec s d).dispatchers d').inHand u) ↔
      ∃ d', d' ≠ d ∧ ∃ u, p ∈ (s.dispatchers d').inHand u := by
  refine exists_congr fun d' => and_congr_right fun other => ?_
  have same : (dispatch codec s d).dispatchers d' = s.dispatchers d' := Function.update_of_ne other ..
  rw [same]

/-- One payload in hand is in hand for one tenant. -/
theorem exists_mem_held (tenantId : String) (payload p : Payload Dict) :
    (∃ u, p ∈ if tenantId = u then [payload] else []) ↔ p = payload := by
  constructor
  · rintro ⟨u, mem⟩
    split at mem
    · exact List.mem_singleton.mp mem
    · cases mem
  · rintro rfl
    exact ⟨tenantId, by rw [if_pos rfl]; exact List.mem_singleton_self _⟩

/-- What was on the lists is still there, or was popped. -/
theorem exists_mem_popped {queue : String → List String} {tenantId : String}
    {payload p : Payload Dict} {rest : List String}
    (head : queue tenantId = codec.dumps payload :: rest) :
    (∃ u, codec.dumps p ∈ queue u) ↔
      (∃ u, codec.dumps p ∈ if u = tenantId then rest else queue u) ∨ p = payload := by
  constructor
  · rintro ⟨u, mem⟩
    by_cases same : u = tenantId
    · subst same
      rw [head] at mem
      rcases List.mem_cons.mp mem with first | later
      · exact .inr (dumps_inj first)
      · exact .inl ⟨u, by rwa [if_pos rfl]⟩
    · exact .inl ⟨u, by rwa [if_neg same]⟩
  · rintro (⟨u, mem⟩ | rfl)
    · by_cases same : u = tenantId
      · subst same
        rw [if_pos rfl] at mem
        exact ⟨u, head ▸ List.mem_cons_of_mem _ mem⟩
      · exact ⟨u, by rwa [if_neg same] at mem⟩
    · exact ⟨tenantId, head ▸ List.mem_cons_self⟩

/-- A dispatcher's command moves payloads about but neither adds nor drops one. -/
theorem waiting_dispatch {d : Nat} (texts : Texts codec s.world) (p : Payload Dict) :
    Waiting codec (dispatch codec s d) p ↔ Waiting codec s p := by
  unfold Waiting
  rw [hand_split _ d, hand_split s.dispatchers d, dispatchers_dispatch, others_dispatch]
  change (∃ u, codec.dumps p ∈ (dispatchStep codec (asSeen s d)).queue u) ∨
    p ∈ (dispatchStep codec (asSeen s d)).celery ∨ _ ∨ (∃ k, p ∈ (s.workers k).inHand) ↔ _
  cases dispatchStep_moved (w := asSeen s d) texts with
  | quiet queue celery _ before after =>
      simp only [queue, celery, after, show ∀ u, (s.dispatchers d).inHand u = [] from before]
      rfl
  | popped tenantId payload rest head queue celery _ before after =>
      simp only [celery, after, show ∀ u, (s.dispatchers d).inHand u = [] from before, queue]
      have popped : (∃ u, codec.dumps p ∈ s.world.queue u) ↔ _ := exists_mem_popped head
      rw [popped, exists_mem_held]
      simp only [List.not_mem_nil, exists_false, false_or]
      change (∃ u, codec.dumps p ∈ if u = tenantId then rest else s.world.queue u) ∨ _ ↔ _
      simp only [or_assoc, or_left_comm, or_comm]
  | sent tenantId payload queue celery _ before after =>
      simp only [queue, celery, after, List.mem_append, List.mem_singleton,
        show ∀ u, (s.dispatchers d).inHand u = _ from before]
      rw [exists_mem_held]
      simp only [List.not_mem_nil, exists_false, false_or]
      change (∃ u, _ ∈ s.world.queue u) ∨ _ ↔ _
      simp only [or_assoc, or_left_comm, or_comm]

/-- What a dispatcher has sent to Celery it had in its hand. -/
theorem placed_dispatch {d : Nat} (texts : Texts codec s.world) {p : Payload Dict}
    (placed : Placed (dispatch codec s d) p) : Placed s p ∨ Waiting codec s p := by
  have enqueued : (dispatchStep codec (asSeen s d)).enqueued = s.world.enqueued :=
    dispatchStep_enqueued _
  rcases placed with ⟨u, mem⟩ | ⟨u, mem⟩ | mem
  · change p ∈ (dispatchStep codec (asSeen s d)).enqueued u at mem
    rw [enqueued] at mem
    exact .inl (.inl ⟨u, mem⟩)
  · change p ∈ (dispatchStep codec (asSeen s d)).accepted u at mem
    cases dispatchStep_moved (w := asSeen s d) texts with
    | quiet _ _ accepted => exact .inl (.inr (.inl ⟨u, by rwa [accepted] at mem⟩))
    | popped _ _ _ _ _ _ accepted => exact .inl (.inr (.inl ⟨u, by rwa [accepted] at mem⟩))
    | sent tenantId payload _ _ accepted before =>
        rw [accepted] at mem
        split at mem
        · rcases List.mem_append.mp mem with old | new
          · exact .inl (.inr (.inl ⟨u, old⟩))
          · obtain rfl := List.mem_singleton.mp new
            refine .inr (.inr (.inr (.inl ⟨d, tenantId, ?_⟩)))
            rw [show (s.dispatchers d).inHand tenantId = _ from before tenantId, if_pos rfl]
            exact List.mem_singleton_self _
        · exact .inl (.inr (.inl ⟨u, mem⟩))
  · exact .inr ((waiting_dispatch texts p).mp (.inr (.inl mem)))

theorem inv_dispatch (h : Inv codec s) (d : Nat) : Inv codec (dispatch codec s d) where
  texts u text mem := by
    change text ∈ (dispatchStep codec (asSeen s d)).queue u at mem
    cases dispatchStep_moved (w := asSeen s d) h.texts with
    | quiet queue => exact h.texts u text (by rwa [queue] at mem)
    | popped tenantId payload rest head queue =>
        rw [queue] at mem
        split at mem
        · refine h.texts tenantId text ?_
          rw [show s.world.queue tenantId = _ from head]
          exact List.mem_cons_of_mem _ mem
        · exact h.texts u text mem
    | sent _ _ queue => exact h.texts u text (by rwa [queue] at mem)
  ids := h.ids
  placed p placed := (placed_dispatch h.texts placed).elim (h.placed p) (h.located p)
  located p waiting := h.located p ((waiting_dispatch h.texts p).mp waiting)
  triggered := h.triggered
  refreshing := h.refreshing
  ingesting := h.ingesting
  waiting job mem queued free := (waiting_dispatch h.texts _).mpr (h.waiting job mem queued free)

/-! ### Workers -/

/-- A payload is in the hands of one worker or of another. -/
theorem workers_split (workers : Nat → Worker) (k : Nat) (p : Payload Dict) :
    (∃ j, p ∈ (workers j).inHand) ↔
      p ∈ (workers k).inHand ∨ ∃ j, j ≠ k ∧ p ∈ (workers j).inHand := by
  constructor
  · rintro ⟨j, mem⟩
    by_cases this : j = k
    · exact .inl (this ▸ mem)
    · exact .inr ⟨j, this, mem⟩
  · rintro (mem | ⟨j, _, mem⟩)
    · exact ⟨k, mem⟩
    · exact ⟨j, mem⟩

/-- Only the hands of the worker that takes the step change. -/
theorem inHand_setWorker (s : System) (k : Nat) (worker : Worker) (p : Payload Dict) :
    (∃ j, p ∈ ((s.setWorker k worker).workers j).inHand) ↔
      p ∈ worker.inHand ∨ ∃ j, j ≠ k ∧ p ∈ (s.workers j).inHand := by
  rw [workers_split _ k, System.workers_setWorker]
  refine or_congr_right (exists_congr fun j => and_congr_right fun other => ?_)
  rw [System.workers_setWorker_of_ne _ _ other]

/-- A worker that is put to something else is not the one that ingests. -/
theorem ingesting_of_setWorker {worker : Worker} {j : Nat} {p : Payload Dict} {jobId : Uuid}
    (same : (s.setWorker k worker).workers j = .ingesting p jobId)
    (other : worker ≠ .ingesting p jobId) : s.workers j = .ingesting p jobId := by
  by_cases this : j = k
  · subst this
    rw [System.workers_setWorker] at same
    exact absurd same other
  · rwa [System.workers_setWorker_of_ne _ _ this] at same

/-- A worker takes the next message. -/
theorem inv_receive (h : Inv codec s) {payload : Payload Dict} {rest : List (Payload Dict)}
    (stands : s.workers k = .free) (celery : s.world.celery = payload :: rest) :
    Inv codec ({ s with world := { s.world with celery := rest } }.setWorker k
      (.received payload)) := by
  have waiting (p : Payload Dict) : Waiting codec
      ({ s with world := { s.world with celery := rest } }.setWorker k (.received payload)) p ↔
        Waiting codec s p := by
    unfold Waiting
    rw [inHand_setWorker, workers_split s.workers k, stands, celery, List.mem_cons]
    simp only [Worker.inHand, List.mem_singleton, List.not_mem_nil, false_or]
    change (∃ u, codec.dumps p ∈ s.world.queue u) ∨ p ∈ rest ∨ _ ↔ _
    simp only [or_assoc, or_left_comm]
    rfl
  refine ⟨h.texts, h.ids, fun p placed => h.placed p ?_,
    fun p located => h.located p ((waiting p).mp located), h.triggered, h.refreshing,
    fun j p jobId same => ?_,
    fun job mem queued free => (waiting _).mpr (h.waiting job mem queued free)⟩
  · rcases placed with enqueued | accepted | mem
    · exact .inl enqueued
    · exact .inr (.inl accepted)
    · exact .inr (.inr (celery ▸ List.mem_cons_of_mem _ mem))
  · exact h.ingesting j p jobId (ingesting_of_setWorker same nofun)

/-- The rows after a status was set. -/
theorem mem_setStatus {id : Uuid} {status : Status} {jobs : Table IngestionJob IngestionJob.Clash}
    {job : IngestionJob} (mem : job ∈ (setStatus id status jobs).rows) :
    (job ∈ jobs.rows ∧ job.id ≠ id) ∨ (job.id = id ∧ job.status = status) := by
  obtain ⟨row, rowMem, rfl⟩ := List.mem_map.mp mem
  unfold withStatus
  split
  · exact .inr ⟨‹_›, rfl⟩
  · exact .inl ⟨rowMem, ‹_›⟩

/-- A job leaves the queued status. -/
theorem Inv.setStatus (h : Inv codec s) (id : Uuid) {status : Status} (left : status ≠ .queued) :
    Inv codec { s with jobs := setStatus id status s.jobs } := by
  have ids := ids_setStatus id status s.jobs
  refine ⟨h.texts, fun job mem => ?_, fun p placed => (h.placed p placed).mono ids,
    fun p located => (h.located p located).mono ids,
    fun j job same => (h.triggered j job same).mono ids, h.refreshing,
    fun j p jobId same => ?_, fun job mem queued free => ?_⟩
  · obtain ⟨row, rowMem, rfl⟩ := List.mem_map.mp mem
    rw [withStatus_id]
    exact h.ids row rowMem
  · obtain ⟨names, marked⟩ := h.ingesting j p jobId same
    refine ⟨names, fun job mem isJob => ?_⟩
    rcases mem_setStatus mem with ⟨old, _⟩ | ⟨_, isStatus⟩
    · exact marked job old isJob
    · rwa [isStatus]
  · rcases mem_setStatus mem with ⟨old, _⟩ | ⟨_, isStatus⟩
    · exact h.waiting job old queued free
    · exact absurd (isStatus.symm.trans queued) left

/-- A worker whose job is marked goes on to ingest. -/
theorem Inv.startIngesting (h : Inv codec s) {payload : Payload Dict} {jobId : Uuid}
    (stands : s.workers k = .received payload) (names : jobOf payload = some jobId)
    (marked : ∀ job ∈ s.jobs.rows, job.id = jobId → job.status ≠ .queued) :
    Inv codec (s.setWorker k (.ingesting payload jobId)) := by
  have waiting (p : Payload Dict) :
      Waiting codec (s.setWorker k (.ingesting payload jobId)) p ↔ Waiting codec s p := by
    unfold Waiting
    rw [inHand_setWorker, workers_split s.workers k, stands]
    rfl
  refine ⟨h.texts, h.ids, h.placed, fun p located => h.located p ((waiting p).mp located),
    h.triggered, h.refreshing, fun j p own same => ?_,
    fun job mem queued free => (waiting _).mpr (h.waiting job mem queued free)⟩
  by_cases this : j = k
  · subst this
    rw [System.workers_setWorker] at same
    obtain ⟨rfl, rfl⟩ := Worker.ingesting.inj same
    exact ⟨names, marked⟩
  · rw [System.workers_setWorker_of_ne _ _ this] at same
    exact h.ingesting j p own same

theorem queue_republish (world : World Dict) (again : Bool) (payload : Payload Dict) :
    (republish world again payload).queue = world.queue := by
  cases again <;> rfl

theorem mem_celery_republish {world : World Dict} {again : Bool} {payload p : Payload Dict}
    (mem : p ∈ (republish world again payload).celery) : p ∈ world.celery ∨ p = payload := by
  cases again with
  | false => exact .inl mem
  | true => simpa [republish] using mem

/-- An attempt ends; the job it worked on is no longer queued. -/
theorem Inv.letGo (h : Inv codec s) {payload : Payload Dict} {jobId : Uuid}
    (stands : s.workers k = .ingesting payload jobId) (again : Bool) :
    Inv codec ({ s with world := republish s.world again payload }.setWorker k .free) := by
  have inHand : Waiting codec s payload :=
    .inr (.inr (.inr ⟨k, by rw [stands]; exact List.mem_singleton_self _⟩))
  refine ⟨fun u text mem => ?_, h.ids, fun p placed => ?_, fun p located => ?_, h.triggered,
    h.refreshing, fun j p own same => ?_, fun job mem queued free => ?_⟩
  · exact h.texts u text (by rwa [System.setWorker, queue_republish] at mem)
  · rcases placed with ⟨u, mem⟩ | ⟨u, mem⟩ | mem
    · exact h.placed p (.inl ⟨u, by cases again <;> exact mem⟩)
    · exact h.placed p (.inr (.inl ⟨u, by cases again <;> exact mem⟩))
    · rcases mem_celery_republish mem with old | rfl
      · exact h.placed p (.inr (.inr old))
      · exact h.located p inHand
  · rcases located with ⟨u, mem⟩ | mem | hands | workers
    · exact h.located p (.inl ⟨u, by rwa [System.setWorker, queue_republish] at mem⟩)
    · rcases mem_celery_republish mem with old | rfl
      · exact h.located p (.inr (.inl old))
      · exact h.located p inHand
    · exact h.located p (.inr (.inr (.inl hands)))
    · rcases (inHand_setWorker _ _ _ _).mp workers with own | ⟨j, _, mem⟩
      · cases own
      · exact h.located p (.inr (.inr (.inr ⟨j, mem⟩)))
  · exact h.ingesting j p own (ingesting_of_setWorker same nofun)
  · rcases h.waiting job mem queued free with ⟨u, old⟩ | celery | hands | workers
    · exact .inl ⟨u, by rwa [System.setWorker, queue_republish]⟩
    · refine .inr (.inl ?_)
      cases again with
      | false => exact celery
      | true => exact List.mem_append_left _ celery
    · exact .inr (.inr (.inl hands))
    · rcases (workers_split s.workers k _).mp workers with own | ⟨j, other, mem'⟩
      · -- the worker's payload names no queued job
        rw [stands] at own
        obtain rfl := List.mem_singleton.mp own
        obtain ⟨names, marked⟩ := h.ingesting k _ jobId stands
        rw [jobOf_payloadOf (h.ids job mem)] at names
        exact absurd queued (marked job mem (Option.some.inj names))
      · exact .inr (.inr (.inr ((inHand_setWorker _ _ _ _).mpr (.inr ⟨j, other, mem'⟩))))

theorem inv_begin (h : Inv codec s) {again : Bool} (stepped : begin s k again = some t) :
    Inv codec t := by
  unfold begin at stepped
  split at stepped
  case h_2 => cases stepped
  case h_1 payload stands =>
    obtain ⟨row, rowMem, names⟩ : Named s payload :=
      h.located payload (.inr (.inr (.inr ⟨k, by rw [stands]; exact List.mem_singleton_self _⟩)))
    obtain ⟨kwargs, read, isJob⟩ := Option.map_eq_some_iff.mp names
    rw [read] at stepped
    dsimp only at stepped
    rw [if_pos (by simpa [isJob] using ⟨row, rowMem, rfl⟩)] at stepped
    obtain rfl := Option.some.inj stepped
    refine (h.setStatus kwargs.jobId (by decide)).startIngesting stands (isJob ▸ names)
      fun job mem isJob => ?_
    rcases mem_setStatus mem with ⟨_, other⟩ | ⟨_, running⟩
    · exact absurd isJob other
    · rw [running]
      decide

theorem inv_finish (h : Inv codec s) {ending : Ending} (stepped : finish s k ending = some t) :
    Inv codec t := by
  unfold finish at stepped
  split at stepped
  case h_1 payload jobId status terminal stands =>
    obtain rfl := Option.some.inj stepped
    have left : status ≠ .queued := by rcases terminal with rfl | rfl <;> decide
    exact (h.setStatus jobId left).letGo stands false
  case h_2 payload jobId marked again stands =>
    obtain rfl := Option.some.inj stepped
    cases marked with
    | true => exact (h.setStatus jobId (by decide)).letGo stands again
    | false => exact h.letGo stands again
  case h_3 => cases stepped

end Step

/-! ### Runs -/

/-- Every safe step keeps the invariant. -/
theorem inv_step {s t : System} {a : Action} (h : Inv codec s) (safely : safe s a = true)
    (stepped : step codec s a = some t) : Inv codec t := by
  cases a with
  | trigger k query limit =>
      obtain ⟨stands, rfl⟩ := by simpa [step] using stepped
      exact h.setProducer (by simp [stands]) (by simp) (by simp)
  | refresh k queries =>
      obtain ⟨stands, rfl⟩ := by simpa [step] using stepped
      exact h.setProducer (by simp [stands]) (by simp) (by simp)
  | produce k newId =>
      obtain ⟨fits, produced⟩ := by simpa [step] using stepped
      exact inv_produce h fits safely produced
  | producerFails k =>
      obtain ⟨_, rfl⟩ := by simpa [step] using stepped
      refine h.setProducer (fun job stands => ?_) (by simp) (by simp)
      simp [safe, stands] at safely
  | dispatch d =>
      obtain rfl := Option.some.inj stepped
      exact inv_dispatch h d
  | sendRaises d => simp [safe] at safely
  | lockExpires =>
      obtain rfl := Option.some.inj stepped
      exact ⟨h.texts, h.ids, h.placed, h.located, h.triggered, h.refreshing, h.ingesting, h.waiting⟩
  | receive k =>
      simp only [step] at stepped
      split at stepped
      case h_1 payload rest stands celery =>
        obtain rfl := Option.some.inj stepped
        exact inv_receive h stands celery
      case h_2 => cases stepped
  | begin k again => exact inv_begin h stepped
  | finish k ending => exact inv_finish h stepped

/-- In every state of every run in which no refresh enqueues a payload before its commit, no
trigger fails between its commit and its enqueue and no `send_task` raises, every payload ever
placed names a committed job, and every committed job that is queued has its payload in a
tenant queue, in the Celery queue or in a worker's hands, unless its trigger is in progress. -/
theorem jobs_agree {actions : List Action} {s : System}
    (run : Run (Guarded (fun s a => safe s a = true) (Steps (step codec))) System.empty actions s) :
    Agrees codec s :=
  (run.invariant (Inv codec) (fun _ _ _ held stepped => inv_step held stepped.1 stepped.2)
    inv_empty).agrees

/-! ### Samples -/

def tolkien : IngestionQuery := ⟨1, .author, "tolkien"⟩

def tolkienJob : IngestionJob := newJob 7 tolkien 20

/-- A request and its enqueue. -/
def triggers : List Action := [.trigger 0 tolkien 20, .produce 0 7, .produce 0 0]

/-- The system after them. -/
def triggeredSystem (codec : Codec Dict) : System where
  jobs := ⟨[tolkienJob], List.pairwise_singleton _ _⟩
  world := enqueueJob codec World.empty tolkienJob
  producers := Function.update (Function.update (Function.update (fun _ => .idle) 0
    (.triggering tolkien 20)) 0 (.triggered tolkienJob)) 0 .idle
  dispatchers _ := .idle
  workers _ := .free

theorem exec_triggers : exec (step codec) System.empty triggers = some (triggeredSystem codec) := rfl

/-- The only payload is popped and about to be sent. -/
def poppedWorld (codec : Codec Dict) : World Dict :=
  let w := (triggeredSystem codec).world
  { w with
    redis :=
      { w.redis with
        lists := Function.update w.redis.lists (queueKey (uuidText tolkienJob.tenantId)) []
        strings := Function.update w.redis.strings dispatchLockKey (some "1") }
    dispatcher := .sendTask 2 0 (uuidText tolkienJob.tenantId) (payloadOf tolkienJob) [] }

/-- The commands of a dispatch up to its first `send_task`. -/
theorem dispatch_pops :
    (dispatchStep codec)^[4] (triggeredSystem codec).world = poppedWorld codec := by
  have tenants : (triggeredSystem codec).world.redis.sets tenantsSetKey =
      {uuidText tolkienJob.tenantId} := by
    simp [triggeredSystem, enqueueJob, enqueueTask, World.empty, Redis.empty]
  have queue : (triggeredSystem codec).world.redis.lists (queueKey (uuidText tolkienJob.tenantId)) =
      [codec.dumps (payloadOf tolkienJob)] := by
    simp [triggeredSystem, enqueueJob, enqueueTask, World.empty, Redis.empty, payloadOf]
  have idle : (triggeredSystem codec).world.dispatcher = .idle := rfl
  have free : (triggeredSystem codec).world.redis.strings dispatchLockKey = none := rfl
  have room : (triggeredSystem codec).world.celery = [] := rfl
  rw [Function.iterate_succ_apply, Function.iterate_succ_apply, Function.iterate_succ_apply,
    Function.iterate_succ_apply, Function.iterate_zero_apply]
  simp [poppedWorld, dispatchStep, idle, Redis.setNx, free, room, maxCeleryQueueDepth,
    Redis.smembers, tenants, sorted_singleton, Dispatcher.nextTenant, Redis.lpop, queue]

/-- A dispatcher alone with the shared state. -/
theorem exec_dispatches (s : System) (d n : Nat) (w : World Dict) :
    exec (step codec) (s.setDispatcher d w) (List.replicate n (.dispatch d)) =
      some (s.setDispatcher d ((dispatchStep codec)^[n] w)) := by
  induction n generalizing w with
  | zero => rfl
  | succ n ih =>
      have first : step codec (s.setDispatcher d w) (.dispatch d) =
          some (s.setDispatcher d (dispatchStep codec w)) := by
        rw [step, dispatch, asSeen_setDispatcher, setDispatcher_setDispatcher]
      rw [List.replicate_succ, exec, first, Option.bind_some, ih, Function.iterate_succ_apply]

/-- Dispatcher 0 after the trigger, with nobody else about. -/
theorem exec_dispatch (n : Nat) :
    exec (step codec) (triggeredSystem codec) (List.replicate (n + 4) (.dispatch 0)) =
      some ((triggeredSystem codec).setDispatcher 0
        ((dispatchStep codec)^[n] (poppedWorld codec))) := by
  have alone : (triggeredSystem codec).setDispatcher 0 (triggeredSystem codec).world =
      triggeredSystem codec := by
    simp [System.setDispatcher, triggeredSystem, enqueueJob, World.empty]
  have dispatched := @exec_dispatches codec (triggeredSystem codec) 0 (n + 4)
    (triggeredSystem codec).world
  rwa [alone, Function.iterate_add_apply, dispatch_pops] at dispatched

/-- A job from its request into a worker's hands. -/
def wholeWay : List Action :=
  triggers ++ (List.replicate 5 (.dispatch 0) ++ [.receive 0, .begin 0 false])

theorem agrees_on_the_whole_way :
    ∃ s, Run (Guarded (fun s a => safe s a = true) (Steps (step wireCodec))) System.empty
        wholeWay s ∧
      (s.workers 0).jobId = some 7 ∧ Agrees wireCodec s := by
  have received : ∃ s, step wireCodec ((triggeredSystem wireCodec).setDispatcher 0
      (dispatchStep wireCodec (poppedWorld wireCodec))) (.receive 0) = some s ∧
      s.workers 0 = .received (payloadOf tolkienJob) ∧ s.jobs.rows = [tolkienJob] :=
    ⟨_, rfl, rfl, rfl⟩
  obtain ⟨r, receives, stands, rows⟩ := received
  have read : callOf (payloadOf tolkienJob) = some (argumentsOf tolkienJob) :=
    ingestWorks_stored ⟨tolkienJob, by decide, by decide⟩
  have begun : ∃ s, step wireCodec r (.begin 0 false) = some s ∧ (s.workers 0).jobId = some 7 := by
    refine ⟨_, by simp only [step, begin, stands, read, rows]; rfl, ?_⟩
    rw [System.workers_setWorker]
    rfl
  obtain ⟨s, begins, ingesting⟩ := begun
  have rest : exec (step wireCodec) (triggeredSystem wireCodec)
      (List.replicate 5 (.dispatch 0) ++ [.receive 0, .begin 0 false]) = some s := by
    rw [exec_append, exec_dispatch 1, Option.bind_some, Function.iterate_one, exec, receives,
      Option.bind_some, exec, begins]
    rfl
  have run : Run (Guarded (fun s a => safe s a = true) (Steps (step wireCodec))) System.empty
      wholeWay s :=
    (guarded_run_of_exec rfl).append ((run_of_exec rest).guard fun s a mem => by
      simp only [List.mem_append, List.mem_replicate, List.mem_cons, List.not_mem_nil, or_false] at mem
      rcases mem with ⟨-, rfl⟩ | rfl | rfl <;> rfl)
  exact ⟨s, run, ingesting, jobs_agree run⟩

/-- A refresh enqueues a payload whose job nobody else can see. -/
def refreshEnqueues : List Action := [.refresh 0 [tolkien], .produce 0 7, .produce 0 0]

/-- A trigger commits its job and fails. -/
def triggerFails : List Action := [.trigger 0 tolkien 20, .produce 0 7, .producerFails 0]

/-- A dispatcher pops a payload, and the broker does not take it. -/
def sendFails : List Action := triggers ++ (List.replicate 4 (.dispatch 0) ++ [.sendRaises 0])

theorem step_sendRaises (s : System) (d : Nat) {v w : World Dict}
    (raised : FairQueue.step codec w .sendRaises = some v) :
    step codec (s.setDispatcher d w) (.sendRaises d) = some (s.setDispatcher d v) := by
  rw [step, asSeen_setDispatcher, raised, Option.map_some, setDispatcher_setDispatcher]

/-- The state `sendFails` leads to. -/
def lostSystem (codec : Codec Dict) : System :=
  (triggeredSystem codec).setDispatcher 0
    { poppedWorld codec with
      undelivered := Function.update (fun _ => []) (uuidText tolkienJob.tenantId)
        ([] ++ [payloadOf tolkienJob])
      dispatcher := .release none }

theorem exec_sendFails : exec (step codec) System.empty sendFails = some (lostSystem codec) := by
  have raised : step codec ((triggeredSystem codec).setDispatcher 0 (poppedWorld codec))
      (.sendRaises 0) = some (lostSystem codec) := step_sendRaises _ 0 rfl
  rw [sendFails, exec_append, exec_triggers, Option.bind_some, exec_append, exec_dispatch 0,
    Option.bind_some, Function.iterate_zero_apply, exec, raised]
  rfl

/-- Nobody has the payload any more. -/
theorem not_waiting_lostSystem : ¬ Waiting codec (lostSystem codec) (payloadOf tolkienJob) := by
  rintro (⟨u, mem⟩ | mem | ⟨d, u, mem⟩ | ⟨k, mem⟩)
  · change codec.dumps _ ∈ Function.update (triggeredSystem codec).world.redis.lists
      (queueKey (uuidText tolkienJob.tenantId)) [] (queueKey u) at mem
    rw [Function.update_apply] at mem
    split at mem
    · cases mem
    case isFalse other =>
      change _ ∈ (enqueueJob codec World.empty tolkienJob).queue u at mem
      rw [queue_enqueueJob, if_neg (mt queueKey_inj.mpr other)] at mem
      cases mem
  · cases mem
  · cases d <;> cases mem
  · cases mem

/-- Both halves of the property fail, each by one step; the second in two ways. -/
theorem job_and_queue_disagree :
    (¬ ∀ actions s, Run (Steps (step wireCodec)) System.empty actions s →
      ∀ payload, Placed s payload → Named s payload) ∧
    ∀ actions ∈ [triggerFails, sendFails], ¬ ∀ s,
      Run (Steps (step wireCodec)) System.empty actions s →
      ∀ job ∈ s.jobs.rows, job.status = .queued → (∀ k, s.producers k ≠ .triggered job) →
        Waiting wireCodec s (payloadOf job) := by
  constructor
  · intro named
    have run : Run (Steps (step wireCodec)) System.empty refreshEnqueues _ := run_of_exec rfl
    let job := newJob 7 tolkien refreshLimit
    have enqueued : payloadOf job ∈
        (enqueueJob wireCodec World.empty job).enqueued (uuidText job.tenantId) := by
      rw [enqueued_enqueueJob, if_pos rfl]
      exact List.mem_append_right _ (List.mem_singleton_self _)
    obtain ⟨job, mem, _⟩ := named _ _ run _ (.inl ⟨_, enqueued⟩)
    cases mem
  · intro actions mem waiting
    rcases List.mem_pair.mp mem with rfl | rfl
    · have run : Run (Steps (step wireCodec)) System.empty triggerFails _ := run_of_exec rfl
      have lost := waiting _ run tolkienJob List.mem_cons_self rfl fun k => by
        simp [System.setProducer, System.empty]
      rcases lost with ⟨u, mem⟩ | mem | ⟨d, u, mem⟩ | ⟨k, mem⟩ <;> cases mem
    · exact not_waiting_lostSystem (waiting _ (run_of_exec exec_sendFails) tolkienJob
        List.mem_cons_self rfl fun k => by
          cases k <;> simp [lostSystem, System.setDispatcher, triggeredSystem])

end TenantLibrary.JobQueue
