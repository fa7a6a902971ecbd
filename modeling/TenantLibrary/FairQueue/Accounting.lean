import TenantLibrary.FairQueue.Stranded
import TenantLibrary.Lib.Ledger

/-!
Accounting of the fair queue: where every payload ever enqueued is.

For each tenant the world is an instance of a queue whose consumer takes an item
before it hands it on: the dispatcher holds a payload between its `LPOP` and its
`send_task`. Every run keeps the tenant's ledger balanced (`accounted_run`), and a
`send_task` that raises drops its payload for good. So at rest the payloads
enqueued are those Celery accepted followed by those on the list exactly when no
`send_task` has raised (`exactly_once_iff`).
-/

namespace TenantLibrary.FairQueue

open TenantLibrary.Lib

variable {Kwargs : Type} {codec : Codec Kwargs}

/-- Nothing lost, duplicated or reordered: the tenant's payloads enqueued so far
are those accepted by Celery followed by the contents of its list, which holds
JSON texts. -/
def ExactlyOnce (codec : Codec Kwargs) (w : World Kwargs) (tenantId : String) : Prop :=
  (w.enqueued tenantId).map some =
    (w.accepted tenantId).map some ++ (w.queue tenantId).map codec.loads

/-- The payload of this tenant that has left its list and not reached Celery yet. -/
def Dispatcher.inHand (d : Dispatcher Kwargs) (tenantId : String) : List (Payload Kwargs) :=
  match d with
  | .sendTask _ _ t payload _ => if t = tenantId then [payload] else []
  | _ => []

@[simp] theorem inHand_nextTenant (slots dispatched : Nat) (ids : List String)
    (tenantId : String) :
    (Dispatcher.nextTenant slots dispatched ids : Dispatcher Kwargs).inHand tenantId = [] := by
  cases ids with
  | nil => rfl
  | cons t rest =>
      by_cases full : dispatched ≥ slots <;> simp [Dispatcher.nextTenant, full, Dispatcher.inHand]

@[simp] theorem inHand_llenTenant (slots dispatched : Nat) (id tenantId : String)
    (rest : List String) :
    (Dispatcher.llenTenant slots dispatched id rest : Dispatcher Kwargs).inHand tenantId = [] := rfl

@[simp] theorem inHand_release (result : Option Nat) (tenantId : String) :
    (Dispatcher.release result : Dispatcher Kwargs).inHand tenantId = [] := rfl

/-- The tenant's list holds the texts of the payloads waiting in a balanced ledger. -/
def Accounted (codec : Codec Kwargs) (w : World Kwargs) (tenantId : String) : Prop :=
  ∃ waiting, w.queue tenantId = waiting.map codec.dumps ∧
    Ledger.Balanced ⟨w.enqueued tenantId, w.accepted tenantId, w.undelivered tenantId,
      w.dispatcher.inHand tenantId, waiting⟩

theorem accounted_empty (tenantId : String) :
    Accounted codec (World.empty : World Kwargs) tenantId :=
  ⟨[], rfl, Ledger.balanced_empty⟩

/-- At rest, a tenant's accounts are complete exactly when nothing was dropped. -/
theorem Accounted.exactlyOnce_iff {w : World Kwargs} {tenantId : String}
    (h : Accounted codec w tenantId) (idle : w.dispatcher = .idle) :
    ExactlyOnce codec w tenantId ↔ w.undelivered tenantId = [] := by
  obtain ⟨waiting, texts, balanced⟩ := h
  have decoded : (w.queue tenantId).map codec.loads = waiting.map some := by
    rw [texts, List.map_map]
    exact List.map_congr_left fun payload _ => codec.loads_dumps payload
  rw [idle] at balanced
  rw [ExactlyOnce, decoded, ← List.map_append, (Option.some_injective _).list_map.eq_iff]
  exact balanced.complete_iff

/-! ### One step -/

/-- A step that touches none of what the accounting of a tenant reads. -/
theorem Accounted.of_same {w t : World Kwargs} {tenantId : String}
    (h : Accounted codec w tenantId) (queue : t.queue tenantId = w.queue tenantId)
    (hand : t.dispatcher.inHand tenantId = w.dispatcher.inHand tenantId)
    (enqueued : t.enqueued tenantId = w.enqueued tenantId)
    (accepted : t.accepted tenantId = w.accepted tenantId)
    (undelivered : t.undelivered tenantId = w.undelivered tenantId) :
    Accounted codec t tenantId := by
  unfold Accounted
  rw [queue, hand, enqueued, accepted, undelivered]
  exact h

theorem accounted_enqueue {w t : World Kwargs} {u tenantId taskName : String} {kwargs : Kwargs}
    (h : Accounted codec w u)
    (stepped : step codec w (.enqueue tenantId taskName kwargs) = some t) :
    Accounted codec t u := by
  obtain rfl := Option.some.inj stepped
  by_cases same : u = tenantId
  · subst same
    obtain ⟨waiting, texts, balanced⟩ := h
    refine ⟨waiting ++ [⟨taskName, kwargs⟩], ?_, ?_⟩
    · have queue : w.redis.lists (queueKey u) = waiting.map codec.dumps := texts
      simp [World.queue, enqueueTask, queue]
    · simpa only [Function.update_self] using balanced.push
  · refine h.of_same ?_ rfl ?_ rfl rfl
    · simp [World.queue, enqueueTask, same]
    · exact Function.update_of_ne same ..

/-- `LPOP` moves the head of the list into the dispatcher's hand. -/
theorem accounted_lpop {w : World Kwargs} {slots dispatched : Nat} {u tenantId : String}
    {rest : List String} (every : ∀ t, Accounted codec w t)
    (pc : w.dispatcher = .lpop slots dispatched tenantId rest) :
    Accounted codec (dispatchStep codec w) u := by
  have hand : w.dispatcher.inHand u = [] := by rw [pc]; rfl
  obtain ⟨waiting, texts, balanced⟩ := every tenantId
  cases waiting with
  | nil =>
      simp only [dispatchStep, pc, Redis.lpop_nil _ _ texts]
      exact (every u).of_same rfl hand.symm rfl rfl rfl
  | cons payload tail =>
      simp only [dispatchStep, pc, Redis.lpop_cons _ _ _ texts, codec.loads_dumps]
      by_cases same : tenantId = u
      · subst same
        rw [hand] at balanced
        refine ⟨tail, ?_, ?_⟩
        · simp [World.queue]
        · simpa [Dispatcher.inHand] using balanced.pop
      · refine (every u).of_same ?_ ?_ rfl rfl rfl
        · simp [World.queue, Ne.symm same]
        · rw [hand]
          simp [Dispatcher.inHand, same]

/-- `send_task` moves the payload in hand to Celery. -/
theorem accounted_send {w : World Kwargs} {slots dispatched : Nat} {u tenantId : String}
    {payload : Payload Kwargs} {rest : List String} (h : Accounted codec w u)
    (pc : w.dispatcher = .sendTask slots dispatched tenantId payload rest) :
    Accounted codec (dispatchStep codec w) u := by
  simp only [dispatchStep, pc]
  by_cases same : tenantId = u
  · subst same
    obtain ⟨waiting, texts, balanced⟩ := h
    have hand : w.dispatcher.inHand tenantId = [payload] := by simp [pc, Dispatcher.inHand]
    rw [hand] at balanced
    refine ⟨waiting, texts, ?_⟩
    simpa only [Function.update_self, inHand_llenTenant] using balanced.deliver
  · refine h.of_same rfl ?_ rfl ?_ rfl
    · simp [pc, Dispatcher.inHand, same]
    · exact Function.update_of_ne (Ne.symm same) ..

/-- A `send_task` that raises: the payload in hand is on no list and not in Celery. -/
theorem accounted_raise {w : World Kwargs} {slots dispatched : Nat} {u tenantId : String}
    {payload : Payload Kwargs} {rest : List String} (h : Accounted codec w u)
    (pc : w.dispatcher = .sendTask slots dispatched tenantId payload rest) :
    Accounted codec
      { w with
        undelivered := Function.update w.undelivered tenantId
          (w.undelivered tenantId ++ [payload])
        dispatcher := .release none } u := by
  by_cases same : tenantId = u
  · subst same
    obtain ⟨waiting, texts, balanced⟩ := h
    have hand : w.dispatcher.inHand tenantId = [payload] := by simp [pc, Dispatcher.inHand]
    rw [hand] at balanced
    refine ⟨waiting, texts, ?_⟩
    simpa only [Function.update_self, inHand_release] using balanced.drop
  · refine h.of_same rfl ?_ rfl rfl ?_
    · simp [pc, Dispatcher.inHand, same]
    · exact Function.update_of_ne (Ne.symm same) ..

theorem accounted_dispatch {w : World Kwargs} (every : ∀ t, Accounted codec w t)
    (u : String) : Accounted codec (dispatchStep codec w) u := by
  have h := every u
  cases pc : w.dispatcher with
  | lpop slots dispatched tenantId rest => exact accounted_lpop every pc
  | sendTask slots dispatched tenantId payload rest => exact accounted_send h pc
  | idle =>
      simp only [dispatchStep, pc]
      split
      · exact h
      · rename_i r set
        obtain ⟨lists, -⟩ := Redis.same_of_setNx set
        exact h.of_same (by simp [World.queue, lists]) (by rw [pc]; rfl) rfl rfl rfl
  | llenCelery =>
      simp only [dispatchStep, pc]
      split <;> exact h.of_same rfl (by rw [pc]; rfl) rfl rfl rfl
  | smembers slots =>
      simp only [dispatchStep, pc]
      exact h.of_same rfl (by rw [pc]; exact inHand_nextTenant ..) rfl rfl rfl
  | sremEmpty slots dispatched tenantId rest =>
      simp only [dispatchStep, pc]
      exact h.of_same rfl (by rw [pc]; exact inHand_nextTenant ..) rfl rfl rfl
  | llenTenant slots dispatched tenantId rest =>
      simp only [dispatchStep, pc]
      split
      · exact h.of_same rfl (by rw [pc]; rfl) rfl rfl rfl
      · exact h.of_same rfl (by rw [pc]; exact inHand_nextTenant ..) rfl rfl rfl
  | sremDrained slots dispatched tenantId rest =>
      simp only [dispatchStep, pc]
      exact h.of_same rfl (by rw [pc]; exact inHand_nextTenant ..) rfl rfl rfl
  | release result =>
      simp only [dispatchStep, pc]
      exact h.of_same rfl (by rw [pc]; rfl) rfl rfl rfl

theorem accounted_step {w t : World Kwargs} {a : Action Kwargs}
    (every : ∀ u, Accounted codec w u) (stepped : step codec w a = some t) (u : String) :
    Accounted codec t u := by
  cases a with
  | enqueue tenantId taskName kwargs => exact accounted_enqueue (every u) stepped
  | dispatch =>
      obtain rfl := Option.some.inj stepped
      exact accounted_dispatch every u
  | sendRaises =>
      obtain ⟨_, _, _, _, _, pc, rfl⟩ := sendRaises_eq_some stepped
      exact accounted_raise (every u) pc
  | publish payload =>
      obtain rfl := Option.some.inj stepped
      exact (every u).of_same rfl rfl rfl rfl rfl
  | consume =>
      obtain ⟨_, _, _, rfl⟩ := consume_eq_some stepped
      exact (every u).of_same rfl rfl rfl rfl rfl
  | lockExpires =>
      obtain rfl := Option.some.inj stepped
      exact (every u).of_same rfl rfl rfl rfl rfl

/-- Only a `send_task` that raises adds to the record of undelivered payloads. -/
theorem undelivered_step {w t : World Kwargs} {a : Action Kwargs}
    (stepped : step codec w a = some t) :
    (∀ u, t.undelivered u = []) ↔ (∀ u, w.undelivered u = []) ∧ a ≠ .sendRaises := by
  cases a with
  | dispatch =>
      obtain rfl := Option.some.inj stepped
      have same : (dispatchStep codec w).undelivered = w.undelivered := by
        unfold dispatchStep
        dsimp only
        (repeat' split) <;> rfl
      simp [same]
  | sendRaises =>
      obtain ⟨_, _, tenantId, _, _, _, rfl⟩ := sendRaises_eq_some stepped
      simp only [ne_eq, not_true_eq_false, and_false, iff_false, not_forall]
      exact ⟨tenantId, by simp⟩
  | consume =>
      obtain ⟨_, _, _, rfl⟩ := consume_eq_some stepped
      simp
  | enqueue | publish | lockExpires =>
      obtain rfl := Option.some.inj stepped
      simp

/-! ### Whole runs -/

theorem accounted_run {as : List (Action Kwargs)} {w : World Kwargs}
    (run : Run (Steps (step codec)) World.empty as w) : ∀ u, Accounted codec w u :=
  run.invariant (fun w => ∀ u, Accounted codec w u)
    (fun _ _ _ every stepped => accounted_step every stepped) accounted_empty

/-- The record of undelivered payloads is empty exactly in the runs in which no
`send_task` raised. -/
theorem undelivered_run {as : List (Action Kwargs)} {w : World Kwargs}
    (run : Run (Steps (step codec)) World.empty as w) :
    (∀ u, w.undelivered u = []) ↔ .sendRaises ∉ as := by
  let recorded : List (Action Kwargs) → World Kwargs → Prop := fun as w =>
    (∀ u, w.undelivered u = []) ↔ .sendRaises ∉ as
  have step_recorded : ∀ as s a t, recorded as s → Steps (step codec) s a t →
      recorded (as ++ [a]) t := by
    intro before s a t held stepped
    have added := undelivered_step stepped
    simp only [recorded, List.mem_append, List.mem_singleton, not_or] at held ⊢
    rw [added, held]
    exact and_congr_right fun _ => ne_comm
  have start : recorded [] World.empty := by simp [recorded, World.empty]
  exact run.invariant_trace recorded step_recorded start

/-- In every state of every run in which no dispatch is in progress, every tenant's
payloads are accounted for exactly once and in order if and only if no `send_task`
of the run has raised. -/
theorem exactly_once_iff {as : List (Action Kwargs)} {w : World Kwargs}
    (run : Run (Steps (step codec)) World.empty as w) (idle : w.dispatcher = .idle) :
    (∀ u, ExactlyOnce codec w u) ↔ .sendRaises ∉ as := by
  rw [← undelivered_run run]
  exact forall_congr' fun u => (accounted_run run u).exactlyOnce_iff idle

/-- One dispatch of one task: `SET`, `LLEN`, `SMEMBERS`, `LPOP`, the `send_task`,
which succeeds or raises, and the commands after it. -/
def oneTask (send : Action Unit) (after : Nat) : List (Action Unit) :=
  .enqueue "a" "ingest" () :: List.replicate 4 .dispatch ++ [send] ++
    List.replicate after .dispatch

/-- A dispatch whose `send_task` succeeds. -/
theorem exactly_once_delivered :
    ∃ w, exec (step bareCodec) World.empty (oneTask .dispatch 3) = some w ∧
      ((∀ u, ExactlyOnce bareCodec w u) ↔ .sendRaises ∉ oneTask .dispatch 3) :=
  ⟨_, rfl, exactly_once_iff (run_of_exec rfl) rfl⟩

/-- When the broker refuses the task, the payload is in no queue afterwards. -/
theorem send_raises_loses_payload :
    ¬ ∀ (as : List (Action Unit)) (w : World Unit),
      Run (Steps (step bareCodec)) World.empty as w → w.dispatcher = .idle →
        ∀ u, ExactlyOnce bareCodec w u := by
  intro always
  obtain ⟨w, computed, idle, lost⟩ :
      ∃ w, exec (step bareCodec) World.empty (oneTask .sendRaises 1) = some w ∧
        w.dispatcher = .idle ∧ ¬ ExactlyOnce bareCodec w "a" :=
    ⟨_, rfl, by decide, by unfold ExactlyOnce; decide⟩
  exact lost (always _ w (run_of_exec computed) idle "a")

end TenantLibrary.FairQueue
