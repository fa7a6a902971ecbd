import Mathlib.Data.Finset.Sort
import Mathlib.Data.List.Sort
import Mathlib.Data.String.Basic
import TenantLibrary.Lib.Redis
import TenantLibrary.Lib.Run

/-!
The fair per-tenant task queue (`app/tasks/fair_scheduler.py`).

Producers push a payload onto their tenant's Redis list and add the tenant to the
set of tenants with pending work in one pipeline. `dispatch_fair_batch` pops one
payload per tenant in sorted order and hands it to Celery, one Redis command at a
time. The model keeps that granularity: a `Dispatcher` value says which command
comes next and holds the local variables of the function, so any other client's
command can fall between two of the dispatcher's own.

`World` also records, per tenant, every payload ever enqueued, accepted by Celery
and popped for a `send_task` that raised. No definition reads these records; they
let a statement speak about a whole run.
-/

namespace TenantLibrary.FairQueue

open TenantLibrary.Lib

/-! ### Keys and payloads -/

def tenantQueuePrefix : String := "fairq:tenant:"
def tenantsSetKey : String := "fairq:tenants"
def dispatchLockKey : String := "fairq:dispatch_lock"
def maxCeleryQueueDepth : Nat := 2

/-- The key of a tenant's task list. -/
def queueKey (tenantId : String) : String := tenantQueuePrefix ++ tenantId

@[simp] theorem queueKey_inj {t u : String} : queueKey t = queueKey u ↔ t = u := by
  simp [queueKey]

/-- The JSON object a queue entry holds. -/
structure Payload (Kwargs : Type) where
  taskName : String
  kwargs : Kwargs
deriving DecidableEq, Repr

/-- `json.dumps` and `json.loads` on payloads; `loads` fails on a malformed text. -/
structure Codec (Kwargs : Type) where
  dumps : Payload Kwargs → String
  loads : String → Option (Payload Kwargs)
  loads_dumps : ∀ payload, loads (dumps payload) = some payload

attribute [simp] Codec.loads_dumps

/-- The texts around the task name in the JSON of a payload without keyword
arguments. -/
def bareOpen : List Char := "\x7b\"task_name\": \"".toList
def bareClose : List Char := "\", \"kwargs\": \x7b\x7d\x7d".toList

/-- The codec at payloads without keyword arguments whose task name needs no JSON
escapes. -/
def bareCodec : Codec Unit where
  dumps payload := String.ofList (bareOpen ++ payload.taskName.toList ++ bareClose)
  loads raw :=
    let body := raw.toList.drop bareOpen.length
    some ⟨String.ofList (body.take (body.length - bareClose.length)), ()⟩
  loads_dumps payload := by simp

variable {Kwargs : Type}

/-- `enqueue_task`: the pipeline of `RPUSH` and `SADD`, executed as one unit. -/
def enqueueTask (codec : Codec Kwargs) (r : Redis) (tenantId taskName : String)
    (kwargs : Kwargs) : Redis :=
  (r.rpush (queueKey tenantId) (codec.dumps ⟨taskName, kwargs⟩)).sadd tenantsSetKey tenantId

/-- `enqueue_task_async`: the same pipeline over the asynchronous client. -/
def enqueueTaskAsync (codec : Codec Kwargs) (r : Redis) (tenantId taskName : String)
    (kwargs : Kwargs) : Redis :=
  (r.rpush (queueKey tenantId) (codec.dumps ⟨taskName, kwargs⟩)).sadd tenantsSetKey tenantId

/-! ### `sorted` on the members of a set -/

/-- Python's `sorted` on a set of strings. -/
def sorted (ids : Finset String) : List String :=
  Quot.liftOn ids.1 (List.insertionSort (· ≤ ·)) fun _ _ perm =>
    List.Perm.eq_of_pairwise' (List.pairwise_insertionSort _ _) (List.pairwise_insertionSort _ _)
      ((List.perm_insertionSort _ _).trans (perm.trans (List.perm_insertionSort _ _).symm))

theorem coe_sorted (ids : Finset String) : (sorted ids : Multiset String) = ids.1 := by
  obtain ⟨members, nodup⟩ := ids
  induction members using Quot.ind with
  | mk l => exact Quot.sound (List.perm_insertionSort _ l)

@[simp] theorem mem_sorted {ids : Finset String} {id : String} : id ∈ sorted ids ↔ id ∈ ids := by
  rw [← Multiset.mem_coe, coe_sorted, Finset.mem_val]

theorem sorted_singleton (id : String) : sorted {id} = [id] :=
  Multiset.coe_eq_singleton.mp (coe_sorted {id})

/-- The members come out in strictly increasing order. -/
theorem sorted_pairwise (ids : Finset String) : (sorted ids).Pairwise (· < ·) := by
  have weak : (sorted ids).Pairwise (· ≤ ·) := by
    obtain ⟨members, nodup⟩ := ids
    induction members using Quot.ind with
    | mk l => exact List.pairwise_insertionSort _ l
  have nodup : (sorted ids).Nodup := by
    rw [← Multiset.coe_nodup, coe_sorted]
    exact ids.nodup
  exact (List.pairwise_and_iff.mpr ⟨weak, nodup⟩).imp fun h => lt_of_le_of_ne h.1 h.2

/-! ### The dispatcher -/

/-- Where `dispatch_fair_batch` stands: each constructor but `idle` names the
command sent next and holds the local variables that later commands read.
`slots` is `available_slots`, `rest` the tenants the `for` loop has not visited. -/
inductive Dispatcher (Kwargs : Type) where
  | idle
  | llenCelery
  | smembers (slots : Nat)
  | lpop (slots dispatched : Nat) (tenantId : String) (rest : List String)
  | sremEmpty (slots dispatched : Nat) (tenantId : String) (rest : List String)
  | sendTask (slots dispatched : Nat) (tenantId : String) (payload : Payload Kwargs)
      (rest : List String)
  | llenTenant (slots dispatched : Nat) (tenantId : String) (rest : List String)
  | sremDrained (slots dispatched : Nat) (tenantId : String) (rest : List String)
  /-- the `finally` clause: `DEL` the lock; `none` when an exception is on its way out -/
  | release (result : Option Nat)
deriving DecidableEq, Repr

/-- The head of the `for` loop: leave it when the tenants or the slots run out. -/
def Dispatcher.nextTenant (slots dispatched : Nat) : List String → Dispatcher Kwargs
  | [] => .release (some dispatched)
  | tenantId :: rest =>
      if dispatched ≥ slots then .release (some dispatched)
      else .lpop slots dispatched tenantId rest

/-- The Redis database, the Celery queue, the dispatcher that runs (at most one),
and the records of the run so far. -/
structure World (Kwargs : Type) where
  redis : Redis
  celery : List (Payload Kwargs)
  dispatcher : Dispatcher Kwargs
  enqueued : String → List (Payload Kwargs)
  accepted : String → List (Payload Kwargs)
  undelivered : String → List (Payload Kwargs)

namespace World

def empty : World Kwargs :=
  ⟨Redis.empty, [], .idle, fun _ => [], fun _ => [], fun _ => []⟩

/-- The entries of a tenant's list. -/
def queue (w : World Kwargs) (tenantId : String) : List String := w.redis.lists (queueKey tenantId)

/-- The members of `fairq:tenants`. -/
def tenants (w : World Kwargs) : Finset String := w.redis.sets tenantsSetKey

/-- A tenant a later dispatch can see work of. -/
def Pending (w : World Kwargs) (tenantId : String) : Prop :=
  tenantId ∈ w.tenants ∧ w.queue tenantId ≠ []

end World

/-- `dispatch_fair_batch` sends its next command; `send_task` succeeds. -/
def dispatchStep (codec : Codec Kwargs) (w : World Kwargs) : World Kwargs :=
  match w.dispatcher with
  | .idle =>
      match w.redis.setNx dispatchLockKey "1" with
      | (false, _) => w
      | (true, r) => { w with redis := r, dispatcher := .llenCelery }
  | .llenCelery =>
      -- a difference of naturals is 0 exactly when the source's is not positive
      let slots := maxCeleryQueueDepth - w.celery.length
      if slots = 0 then { w with dispatcher := .release (some 0) }
      else { w with dispatcher := .smembers slots }
  | .smembers slots =>
      -- an empty set leaves the loop at once with the same result, 0
      { w with dispatcher := .nextTenant slots 0 (sorted (w.redis.smembers tenantsSetKey)) }
  | .lpop slots dispatched tenantId rest =>
      match w.redis.lpop (queueKey tenantId) with
      | (none, _) => { w with dispatcher := .sremEmpty slots dispatched tenantId rest }
      | (some raw, r) =>
          match codec.loads raw with
          | none => { w with redis := r, dispatcher := .release none }
          | some payload =>
              { w with redis := r, dispatcher := .sendTask slots dispatched tenantId payload rest }
  | .sremEmpty slots dispatched tenantId rest =>
      { w with
        redis := w.redis.srem tenantsSetKey tenantId
        dispatcher := .nextTenant slots dispatched rest }
  | .sendTask slots dispatched tenantId payload rest =>
      { w with
        celery := w.celery ++ [payload]
        accepted := Function.update w.accepted tenantId (w.accepted tenantId ++ [payload])
        dispatcher := .llenTenant slots (dispatched + 1) tenantId rest }
  | .llenTenant slots dispatched tenantId rest =>
      if w.redis.llen (queueKey tenantId) = 0 then
        { w with dispatcher := .sremDrained slots dispatched tenantId rest }
      else { w with dispatcher := .nextTenant slots dispatched rest }
  | .sremDrained slots dispatched tenantId rest =>
      { w with
        redis := w.redis.srem tenantsSetKey tenantId
        dispatcher := .nextTenant slots dispatched rest }
  | .release _ => { w with redis := w.redis.del dispatchLockKey, dispatcher := .idle }

/-- What can happen next. `publish` is any other message on the Celery queue
(Beat's periodic tasks, retries); `consume` is a worker taking one. -/
inductive Action (Kwargs : Type) where
  | enqueue (tenantId taskName : String) (kwargs : Kwargs)
  | dispatch
  | sendRaises
  | publish (payload : Payload Kwargs)
  | consume
  | lockExpires
deriving DecidableEq, Repr

/-- One step of the system; `none` when the action is not possible. -/
def step (codec : Codec Kwargs) (w : World Kwargs) : Action Kwargs → Option (World Kwargs)
  | .enqueue tenantId taskName kwargs => some
      { w with
        redis := enqueueTask codec w.redis tenantId taskName kwargs
        enqueued := Function.update w.enqueued tenantId
          (w.enqueued tenantId ++ [⟨taskName, kwargs⟩]) }
  | .dispatch => some (dispatchStep codec w)
  | .sendRaises =>
      match w.dispatcher with
      | .sendTask _ _ tenantId payload _ => some
          { w with
            undelivered := Function.update w.undelivered tenantId
              (w.undelivered tenantId ++ [payload])
            dispatcher := .release none }
      | _ => none
  | .publish payload => some { w with celery := w.celery ++ [payload] }
  | .consume =>
      match w.celery with
      | [] => none
      | _ :: rest => some { w with celery := rest }
  | .lockExpires => some { w with redis := w.redis.del dispatchLockKey }

section Inversion

variable {codec : Codec Kwargs} {w next : World Kwargs}

theorem consume_eq_some (stepped : step codec w .consume = some next) :
    ∃ task rest, w.celery = task :: rest ∧ next = { w with celery := rest } := by
  simp only [step] at stepped
  split at stepped
  next => cases stepped
  next task rest celery => exact ⟨task, rest, celery, (Option.some.inj stepped).symm⟩

/-- Only a `send_task` raises, and its payload is lost. -/
theorem sendRaises_eq_some (stepped : step codec w .sendRaises = some next) :
    ∃ slots dispatched tenantId payload rest,
      w.dispatcher = .sendTask slots dispatched tenantId payload rest ∧
      next = { w with
        undelivered := Function.update w.undelivered tenantId
          (w.undelivered tenantId ++ [payload])
        dispatcher := .release none } := by
  simp only [step] at stepped
  split at stepped
  next slots dispatched tenantId payload rest pc =>
    exact ⟨slots, dispatched, tenantId, payload, rest, pc, (Option.some.inj stepped).symm⟩
  next => cases stepped

end Inversion

/-- Both producers send the same commands. -/
theorem enqueueTaskAsync_eq (codec : Codec Kwargs) :
    enqueueTaskAsync codec = enqueueTask codec := rfl

end TenantLibrary.FairQueue
