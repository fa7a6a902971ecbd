import TenantLibrary.FairQueue.Model

/-!
Stranded work: a tenant whose list is not empty but who is not in the set of
tenants with pending work is invisible to every later dispatch until it enqueues
again.

The dispatcher finds a list empty with one command (`LPOP` or `LLEN`) and removes
its tenant with another (`SREM`). An enqueue of the same tenant in between puts a
payload on the list and the tenant in the set, and the `SREM` then takes the
tenant out again. `no_stranded_work` shows that this is the only way: in a run in
which no enqueue falls into that gap, the set covers every non-empty list.
-/

namespace TenantLibrary.FairQueue

open TenantLibrary.Lib

variable {Kwargs : Type} {codec : Codec Kwargs}

/-- Every tenant with a non-empty list is in the set of tenants. -/
def NoStrandedWork (w : World Kwargs) : Prop :=
  ∀ tenantId, w.queue tenantId ≠ [] → tenantId ∈ w.tenants

/-- The dispatcher has found this tenant's list empty and sends `SREM` next. -/
def Dispatcher.Removes (d : Dispatcher Kwargs) (tenantId : String) : Prop :=
  match d with
  | .sremEmpty _ _ t _ | .sremDrained _ _ t _ => t = tenantId
  | _ => False

instance (d : Dispatcher Kwargs) (tenantId : String) : Decidable (d.Removes tenantId) := by
  unfold Dispatcher.Removes
  split <;> infer_instance

/-- The step is not an enqueue for the tenant the dispatcher is about to remove. -/
def OutsideRemoval (w : World Kwargs) (a : Action Kwargs) : Prop :=
  match a with
  | .enqueue tenantId _ _ => ¬ w.dispatcher.Removes tenantId
  | _ => True

instance (w : World Kwargs) (a : Action Kwargs) : Decidable (OutsideRemoval w a) := by
  unfold OutsideRemoval
  split <;> infer_instance

@[simp] theorem nextTenant_not_removes (slots dispatched : Nat) (ids : List String)
    (tenantId : String) :
    ¬ (Dispatcher.nextTenant slots dispatched ids : Dispatcher Kwargs).Removes tenantId := by
  cases ids with
  | nil => exact id
  | cons t rest =>
      by_cases full : dispatched ≥ slots <;>
        simp [Dispatcher.nextTenant, full, Dispatcher.Removes]

/-- What the dispatcher and the set know about the lists at every point of a run. -/
structure SetCovers (w : World Kwargs) : Prop where
  covers : NoStrandedWork w
  drained : ∀ tenantId, w.dispatcher.Removes tenantId → w.queue tenantId = []

theorem setCovers_empty : SetCovers (World.empty : World Kwargs) where
  covers := fun _ nonempty => absurd rfl nonempty
  drained := fun _ removes => removes.elim

/-! ### Each kind of step keeps the set covering the lists -/

theorem setCovers_enqueue {w : World Kwargs} (h : SetCovers w) {tenantId taskName : String}
    {kwargs : Kwargs} (outside : ¬ w.dispatcher.Removes tenantId) {t : World Kwargs}
    (stepped : step codec w (.enqueue tenantId taskName kwargs) = some t) : SetCovers t := by
  obtain rfl := Option.some.inj stepped
  constructor
  · intro u nonempty
    by_cases same : u = tenantId
    · subst same
      simp [World.tenants, enqueueTask]
    · have before : w.queue u ≠ [] := by
        simpa [World.queue, enqueueTask, same] using nonempty
      simpa [World.tenants, enqueueTask, same] using h.covers u before
  · intro u removes
    have other : u ≠ tenantId := fun same => outside (same ▸ removes)
    simpa [World.queue, enqueueTask, other] using h.drained u removes

/-- A step that changes neither lists nor set, and is not about to remove a tenant
afterwards, keeps the cover. -/
theorem SetCovers.of_same {w t : World Kwargs} (h : SetCovers w)
    (lists : t.redis.lists = w.redis.lists) (sets : t.redis.sets = w.redis.sets)
    (removes : ∀ tenantId, ¬ t.dispatcher.Removes tenantId) : SetCovers t where
  covers := fun u nonempty => by
    simp only [World.queue, World.tenants, lists, sets] at nonempty ⊢
    exact h.covers u nonempty
  drained := fun u held => absurd held (removes u)

/-- `LPOP` shortens one list; the set is not touched. -/
theorem setCovers_pop {w t : World Kwargs} (h : SetCovers w) {tenantId raw : String}
    {rest : List String} (head : w.queue tenantId = raw :: rest)
    (lists : t.redis.lists = Function.update w.redis.lists (queueKey tenantId) rest)
    (sets : t.redis.sets = w.redis.sets)
    (removes : ∀ tenantId, ¬ t.dispatcher.Removes tenantId) : SetCovers t where
  covers := fun u nonempty => by
    have before : w.queue u ≠ [] := by
      by_cases same : u = tenantId
      · simp [same, head]
      · simpa [World.queue, lists, same] using nonempty
    simpa [World.tenants, sets] using h.covers u before
  drained := fun u held => absurd held (removes u)

/-- `SREM` of a tenant whose list is empty. -/
theorem setCovers_srem {w t : World Kwargs} (h : SetCovers w) {tenantId : String}
    (empty : w.queue tenantId = []) (redis : t.redis = w.redis.srem tenantsSetKey tenantId)
    (removes : ∀ tenantId, ¬ t.dispatcher.Removes tenantId) : SetCovers t where
  covers := fun u nonempty => by
    have before : w.queue u ≠ [] := by simpa [World.queue, redis] using nonempty
    have other : u ≠ tenantId := fun same => before (same ▸ empty)
    simpa [World.tenants, redis, other] using h.covers u before
  drained := fun u held => absurd held (removes u)

theorem setCovers_dispatch {w : World Kwargs} (h : SetCovers w) :
    SetCovers (dispatchStep codec w) := by
  unfold dispatchStep
  split
  case h_1 =>
    split
    · exact h
    · rename_i r set
      obtain ⟨lists, sets⟩ := Redis.same_of_setNx set
      exact h.of_same lists sets fun _ => id
  case h_2 =>
    dsimp only
    split <;> exact h.of_same rfl rfl fun _ => id
  case h_3 => exact h.of_same rfl rfl fun _ => nextTenant_not_removes _ _ _ _
  case h_4 slots dispatched tenantId rest pc =>
    cases head : w.queue tenantId with
    | nil =>
        rw [Redis.lpop_nil _ _ head]
        exact ⟨h.covers, fun u removes => removes ▸ head⟩
    | cons raw tail =>
        rw [Redis.lpop_cons _ _ _ head]
        dsimp only
        split <;> exact setCovers_pop h head rfl rfl fun _ => id
  case h_5 slots dispatched tenantId rest pc =>
    have empty := h.drained tenantId (by rw [pc]; rfl)
    exact setCovers_srem h empty rfl fun _ => nextTenant_not_removes _ _ _ _
  case h_6 => exact h.of_same rfl rfl fun _ => id
  case h_7 slots dispatched tenantId rest pc =>
    split
    · rename_i zero
      have empty : w.queue tenantId = [] := List.length_eq_zero_iff.mp zero
      exact ⟨h.covers, fun u removes => removes ▸ empty⟩
    · exact h.of_same rfl rfl fun _ => nextTenant_not_removes _ _ _ _
  case h_8 slots dispatched tenantId rest pc =>
    have empty := h.drained tenantId (by rw [pc]; rfl)
    exact setCovers_srem h empty rfl fun _ => nextTenant_not_removes _ _ _ _
  case h_9 => exact h.of_same rfl rfl fun _ => id

theorem setCovers_step {w t : World Kwargs} {a : Action Kwargs} (h : SetCovers w)
    (outside : OutsideRemoval w a) (stepped : step codec w a = some t) : SetCovers t := by
  cases a with
  | enqueue tenantId taskName kwargs => exact setCovers_enqueue h outside stepped
  | dispatch =>
      obtain rfl := Option.some.inj stepped
      exact setCovers_dispatch h
  | sendRaises =>
      obtain ⟨_, _, _, _, _, _, rfl⟩ := sendRaises_eq_some stepped
      exact h.of_same rfl rfl fun _ => id
  | publish payload =>
      obtain rfl := Option.some.inj stepped
      exact ⟨h.covers, h.drained⟩
  | consume =>
      obtain ⟨_, _, _, rfl⟩ := consume_eq_some stepped
      exact ⟨h.covers, h.drained⟩
  | lockExpires =>
      obtain rfl := Option.some.inj stepped
      exact ⟨h.covers, h.drained⟩

/-! ### Whole runs -/

/-- In a run in which no enqueue falls between the dispatcher's finding a tenant's
list empty and its removing that tenant from the set, every tenant with a
non-empty list is in the set, in every state reached. -/
theorem no_stranded_work {as : List (Action Kwargs)} {w : World Kwargs}
    (run : Run (Guarded OutsideRemoval (Steps (step codec))) World.empty as w) :
    NoStrandedWork w := by
  have covered := run.invariant SetCovers
    (fun _ _ _ held stepped => setCovers_step held stepped.1 stepped.2) setCovers_empty
  exact covered.covers

/-- One task of tenant `a`; tenant `t` enqueues between the `LLEN` and the `SREM`
for `a`. -/
def enqueueInGap (t : String) : List (Action Unit) :=
  .enqueue "a" "ingest" () :: List.replicate 6 .dispatch ++
    [.enqueue t "ingest" (), .dispatch, .dispatch]

/-- Another tenant's enqueue in the gap is harmless. -/
theorem no_stranded_work_other_tenant :
    ∃ w, exec (guardStep OutsideRemoval (step bareCodec)) World.empty (enqueueInGap "b") =
      some w ∧ NoStrandedWork w :=
  ⟨_, rfl, @no_stranded_work Unit bareCodec (enqueueInGap "b") _ (guarded_run_of_exec rfl)⟩

/-- When tenant `a` itself enqueues in the gap, it has work after the dispatch and
is not in the set. -/
theorem enqueue_in_gap_strands :
    ¬ ∀ (as : List (Action Unit)) (w : World Unit),
      Run (Steps (step bareCodec)) World.empty as w → w.dispatcher = .idle →
        NoStrandedWork w := by
  intro always
  obtain ⟨w, computed, idle, work, unseen⟩ :
      ∃ w, exec (step bareCodec) World.empty (enqueueInGap "a") = some w ∧
        w.dispatcher = .idle ∧ w.queue "a" ≠ [] ∧ "a" ∉ w.tenants :=
    ⟨_, rfl, by decide, by decide, by decide⟩
  exact unseen (always _ w (run_of_exec computed) idle "a" work)

end TenantLibrary.FairQueue
