import Mathlib.Algebra.BigOperators.Group.Finset.Piecewise
import TenantLibrary.FairQueue.Accounting
import TenantLibrary.FairQueue.Batch

/-!
How long a tenant's work waits.

A batch visits the tenants in sorted order and has at most two slots, so a tenant can be
passed over while tenants that sort before it have work. It cannot be passed over for
nothing: a batch that finds room and does not serve a waiting tenant sends a task of one
that sorts before it. So the work of those tenants bounds the number of such batches, and
the work of the tenants that sort after it never matters (`served_within`).

The runs are those of the fair queue, one Redis command at a time, in which dispatches do
not overlap, no tenant is stranded and no `send_task` raises. The count starts and ends
between two dispatches: in the middle of a batch a popped task, or a batch that found room
and has not sent yet, would have to be counted on top.
-/

namespace TenantLibrary.FairQueue

open TenantLibrary.Lib

variable {Kwargs : Type} {codec : Codec Kwargs}

/-! ### Work, arrivals and batches with room -/

/-- The tasks of the tenants that sort before this one. -/
def World.workBefore (w : World Kwargs) (tenantId : String) : Nat :=
  ∑ u ∈ w.tenants with u < tenantId, (w.queue u).length

/-- The step enqueues a task for a tenant that sorts before this one. -/
def Action.arrivesBefore (tenantId : String) : Action Kwargs → Bool
  | .enqueue u _ _ => u < tenantId
  | _ => false

/-- How many tasks a run brings to the tenants that sort before this one. -/
def arrivalsBefore (tenantId : String) (as : List (Action Kwargs)) : Nat :=
  as.countP (Action.arrivesBefore tenantId)

/-- A batch looks at the Celery queue and finds room. -/
def FindsRoom (w : World Kwargs) (a : Action Kwargs) : Prop :=
  a matches .dispatch ∧ w.dispatcher matches .llenCelery ∧ w.celery.length < maxCeleryQueueDepth

instance (w : World Kwargs) (a : Action Kwargs) : Decidable (FindsRoom w a) := by
  unfold FindsRoom; infer_instance

/-- No enqueue strands its tenant, and no `send_task` raises. -/
def Orderly (w : World Kwargs) (a : Action Kwargs) : Prop :=
  OutsideRemoval w a ∧ ¬ a matches .sendRaises

instance (w : World Kwargs) (a : Action Kwargs) : Decidable (Orderly w a) := by
  unfold Orderly; infer_instance

/-! ### Where a tenant's tasks are -/

/-- The tasks of a tenant that have not reached Celery. -/
def World.held (w : World Kwargs) (tenantId : String) : Nat :=
  (w.queue tenantId).length + (w.dispatcher.inHand tenantId).length

/-- What a step does to the tasks not sent yet and to the record of those accepted. -/
inductive Moved (w t : World Kwargs) (a : Action Kwargs) : Prop where
  /-- nothing is enqueued or sent -/
  | stays (held : t.held = w.held) (accepted : t.accepted = w.accepted)
  | arrives (u taskName : String) (kwargs : Kwargs) (enqueue : a = .enqueue u taskName kwargs)
      (held : t.held = Function.update w.held u (w.held u + 1))
      (accepted : t.accepted = w.accepted)
  | sent (u : String) (payload : Payload Kwargs)
      (held : w.held = Function.update t.held u (t.held u + 1))
      (accepted : t.accepted = Function.update w.accepted u (w.accepted u ++ [payload]))

theorem held_of_same {w t : World Kwargs} (lists : t.redis.lists = w.redis.lists)
    (hand : ∀ u, t.dispatcher.inHand u = w.dispatcher.inHand u) : t.held = w.held := by
  funext u
  simp only [World.held, World.queue, lists, hand]

theorem held_enqueue {w t : World Kwargs} {tenantId taskName : String} {kwargs : Kwargs}
    (stepped : step codec w (.enqueue tenantId taskName kwargs) = some t) :
    t.held = Function.update w.held tenantId (w.held tenantId + 1) ∧ t.accepted = w.accepted := by
  obtain rfl := Option.some.inj stepped
  refine ⟨?_, rfl⟩
  funext u
  by_cases same : u = tenantId
  · subst same
    simp only [World.held, World.queue, enqueueTask, Redis.sadd_lists, Redis.rpush_lists,
      Function.update_self, List.length_append, List.length_singleton]
    omega
  · simp [World.held, World.queue, enqueueTask, same]

/-- `LPOP` moves a task from the list into the dispatcher's hand. -/
theorem held_lpop {w : World Kwargs} {slots dispatched : Nat} {tenantId : String}
    {rest : List String} (accounted : Accounted codec w tenantId)
    (pc : w.dispatcher = .lpop slots dispatched tenantId rest) :
    (dispatchStep codec w).held = w.held ∧ (dispatchStep codec w).accepted = w.accepted := by
  have hand (u : String) : w.dispatcher.inHand u = [] := by rw [pc]; rfl
  obtain ⟨waiting, texts, -⟩ := accounted
  cases waiting with
  | nil =>
      simp only [dispatchStep, pc, Redis.lpop_nil _ _ texts]
      exact ⟨held_of_same rfl fun u => (hand u).symm ▸ rfl, trivial⟩
  | cons payload tail =>
      simp only [dispatchStep, pc, Redis.lpop_cons _ _ _ texts, codec.loads_dumps]
      refine ⟨?_, trivial⟩
      funext u
      have head : w.queue tenantId = codec.dumps payload :: tail.map codec.dumps := texts
      by_cases same : u = tenantId
      · subst same
        have before : w.held u = tail.length + 1 := by simp [World.held, hand, head]
        rw [before]
        simp [World.held, World.queue, Dispatcher.inHand]
      · have before : w.held u = (w.queue u).length := by simp [World.held, hand]
        rw [before]
        simp [World.held, World.queue, Dispatcher.inHand, same, Ne.symm same]

theorem held_send {w : World Kwargs} {slots dispatched : Nat} {tenantId : String}
    {payload : Payload Kwargs} {rest : List String}
    (pc : w.dispatcher = .sendTask slots dispatched tenantId payload rest) :
    w.held = Function.update (dispatchStep codec w).held tenantId
      ((dispatchStep codec w).held tenantId + 1) := by
  simp only [dispatchStep, pc]
  funext u
  by_cases same : u = tenantId
  · subst same
    simp [World.held, pc, World.queue, Dispatcher.inHand]
  · simp [World.held, pc, World.queue, Dispatcher.inHand, same, Ne.symm same]

/-- No command of a batch but its `send_task` changes what is held. -/
theorem held_dispatch {w : World Kwargs} (every : ∀ u, Accounted codec w u)
    (quiet : ∀ slots dispatched u payload rest,
      w.dispatcher ≠ .sendTask slots dispatched u payload rest) :
    (dispatchStep codec w).held = w.held ∧ (dispatchStep codec w).accepted = w.accepted := by
  cases pc : w.dispatcher with
  | lpop slots dispatched tenantId rest => exact held_lpop (every tenantId) pc
  | sendTask slots dispatched tenantId payload rest => exact absurd pc (quiet slots dispatched tenantId payload rest)
  | idle =>
      simp only [dispatchStep, pc]
      split
      · exact ⟨rfl, rfl⟩
      · rename_i r set
        obtain ⟨lists, -⟩ := Redis.same_of_setNx set
        exact ⟨held_of_same lists fun u => by rw [pc]; rfl, rfl⟩
  | llenCelery =>
      simp only [dispatchStep, pc]
      split <;> exact ⟨held_of_same rfl fun u => by rw [pc]; rfl, rfl⟩
  | smembers slots =>
      simp only [dispatchStep, pc]
      exact ⟨held_of_same rfl fun u => by rw [pc]; exact inHand_nextTenant .., trivial⟩
  | sremEmpty slots dispatched tenantId rest =>
      simp only [dispatchStep, pc]
      exact ⟨held_of_same rfl fun u => by rw [pc]; exact inHand_nextTenant .., trivial⟩
  | llenTenant slots dispatched tenantId rest =>
      simp only [dispatchStep, pc]
      split
      · exact ⟨held_of_same rfl fun u => by rw [pc]; rfl, rfl⟩
      · exact ⟨held_of_same rfl fun u => by rw [pc]; exact inHand_nextTenant .., rfl⟩
  | sremDrained slots dispatched tenantId rest =>
      simp only [dispatchStep, pc]
      exact ⟨held_of_same rfl fun u => by rw [pc]; exact inHand_nextTenant .., trivial⟩
  | release result =>
      simp only [dispatchStep, pc]
      exact ⟨held_of_same rfl fun u => by rw [pc]; rfl, trivial⟩

/-- Only an enqueue and a `send_task` change what is held, in an orderly step. -/
theorem moved_step {w t : World Kwargs} {a : Action Kwargs} (every : ∀ u, Accounted codec w u)
    (orderly : Orderly w a) (stepped : step codec w a = some t) : Moved w t a := by
  cases a with
  | enqueue tenantId taskName kwargs =>
      obtain ⟨held, accepted⟩ := held_enqueue stepped
      exact .arrives tenantId taskName kwargs rfl held accepted
  | sendRaises => exact absurd rfl orderly.2
  | publish payload =>
      obtain rfl := Option.some.inj stepped
      exact .stays rfl rfl
  | consume =>
      obtain ⟨_, _, _, rfl⟩ := consume_eq_some stepped
      exact .stays rfl rfl
  | lockExpires =>
      obtain rfl := Option.some.inj stepped
      exact .stays rfl rfl
  | dispatch =>
      obtain rfl := Option.some.inj stepped
      by_cases sends : ∃ slots dispatched u payload rest,
          w.dispatcher = .sendTask slots dispatched u payload rest
      · obtain ⟨slots, dispatched, u, payload, rest, pc⟩ := sends
        exact .sent u payload (held_send pc) (by simp only [dispatchStep, pc])
      · obtain ⟨held, accepted⟩ := held_dispatch every fun slots dispatched u payload rest pc =>
          sends ⟨slots, dispatched, u, payload, rest, pc⟩
        exact .stays held accepted

/-! ### The place of a batch -/

/-- In a batch that has found room, either something was sent, or this tenant is still to be
visited and the tenants left stand in order. -/
def Dispatcher.Attends (tenantId : String) : Dispatcher Kwargs → Prop
  | .smembers slots => 0 < slots
  | .lpop slots dispatched u rest | .sremEmpty slots dispatched u rest
  | .sendTask slots dispatched u _ rest =>
      dispatched = 0 → 0 < slots ∧ tenantId ∈ u :: rest ∧ (u :: rest).Pairwise (· < ·)
  | .llenTenant _ dispatched _ _ | .sremDrained _ dispatched _ _ => dispatched ≠ 0
  | _ => True

/-- A batch that has found room and not sent anything yet. -/
def Dispatcher.owes : Dispatcher Kwargs → Nat
  | .smembers _ => 1
  | .lpop _ dispatched _ _ | .sremEmpty _ dispatched _ _ | .sendTask _ dispatched _ _ _ =>
      if dispatched = 0 then 1 else 0
  | _ => 0

theorem attends_nextTenant {tenantId : String} {slots dispatched : Nat} {ids : List String}
    (left : dispatched = 0 → 0 < slots ∧ tenantId ∈ ids ∧ ids.Pairwise (· < ·)) :
    (Dispatcher.nextTenant slots dispatched ids : Dispatcher Kwargs).Attends tenantId ∧
      (Dispatcher.nextTenant slots dispatched ids : Dispatcher Kwargs).owes =
        if dispatched = 0 then 1 else 0 := by
  cases ids with
  | nil =>
      have sent : dispatched ≠ 0 := fun nothing => List.not_mem_nil (left nothing).2.1
      exact ⟨trivial, (if_neg sent).symm⟩
  | cons u rest =>
      by_cases full : dispatched ≥ slots
      · have sent : dispatched ≠ 0 := fun nothing => by
          have room := (left nothing).1
          omega
        simp [Dispatcher.nextTenant, full, Dispatcher.Attends, Dispatcher.owes, sent]
      · simp only [Dispatcher.nextTenant, if_neg full, Dispatcher.Attends, Dispatcher.owes,
          and_true]
        exact left

/-- A step of the dispatcher, while the tenant has work on its list or in hand: the batch
keeps attending to it, and what it owes changes only when it finds room or sends. -/
theorem attends_dispatch {w : World Kwargs} {tenantId : String} (every : ∀ u, Accounted codec w u)
    (covers : SetCovers w) (attends : w.dispatcher.Attends tenantId)
    (work : w.held tenantId ≠ 0) :
    (dispatchStep codec w).dispatcher.Attends tenantId ∧
      ((∀ slots dispatched u payload rest,
          w.dispatcher ≠ .sendTask slots dispatched u payload rest) →
        (dispatchStep codec w).dispatcher.owes =
          w.dispatcher.owes + if FindsRoom w (.dispatch : Action Kwargs) then 1 else 0) := by
  have queued (hand : w.dispatcher.inHand tenantId = []) : w.queue tenantId ≠ [] := by
    simpa [World.held, hand] using work
  have noRoom (elsewhere : ¬ w.dispatcher matches .llenCelery) :
      (if FindsRoom w (.dispatch : Action Kwargs) then 1 else 0) = 0 :=
    if_neg fun room => elsewhere room.2.1
  cases pc : w.dispatcher with
  | idle =>
      simp only [dispatchStep, pc]
      split <;> exact ⟨by simp [Dispatcher.Attends, pc], fun _ => by
        simp [Dispatcher.owes, pc, noRoom]⟩
  | llenCelery =>
      simp only [dispatchStep, pc]
      split
      · rename_i full
        have noRoom : ¬ w.celery.length < maxCeleryQueueDepth := by omega
        simp [Dispatcher.Attends, Dispatcher.owes, FindsRoom, noRoom]
      · rename_i room
        have room : w.celery.length < maxCeleryQueueDepth := by omega
        have slots : 0 < maxCeleryQueueDepth - w.celery.length := by omega
        simp [Dispatcher.Attends, Dispatcher.owes, FindsRoom, pc, room, slots]
  | smembers slots =>
      rw [pc] at attends
      have member : tenantId ∈ w.tenants := covers.covers tenantId (queued (by rw [pc]; rfl))
      obtain ⟨attends', owes⟩ := @attends_nextTenant Kwargs tenantId slots 0
        (sorted (w.redis.smembers tenantsSetKey)) fun _ => ⟨attends, mem_sorted.mpr member, sorted_pairwise _⟩
      simp only [dispatchStep, pc]
      exact ⟨attends', fun _ => by rw [owes, noRoom (by simp [pc])]; rfl⟩
  | lpop slots dispatched u rest =>
      rw [pc] at attends
      obtain ⟨waiting, texts, -⟩ := every u
      cases waiting with
      | nil =>
          simp only [dispatchStep, pc, Redis.lpop_nil _ _ texts]
          exact ⟨attends, fun _ => by rw [noRoom (by simp [pc])]; rfl⟩
      | cons payload tail =>
          simp only [dispatchStep, pc, Redis.lpop_cons _ _ _ texts, codec.loads_dumps]
          exact ⟨attends, fun _ => by rw [noRoom (by simp [pc])]; rfl⟩
  | sendTask slots dispatched u payload rest =>
      simp only [dispatchStep, pc]
      exact ⟨Nat.succ_ne_zero _, fun other => absurd rfl (other _ _ _ _ _)⟩
  | sremEmpty slots dispatched u rest =>
      rw [pc] at attends
      have empty : w.queue u = [] := covers.drained u (by rw [pc]; rfl)
      have other : tenantId ≠ u := by
        rintro rfl
        exact queued (by rw [pc]; rfl) empty
      obtain ⟨attends', owes⟩ := @attends_nextTenant Kwargs tenantId slots dispatched rest
        fun nothing => by
          obtain ⟨room, mem, ordered⟩ := attends nothing
          exact ⟨room, (List.mem_cons.mp mem).resolve_left other, ordered.of_cons⟩
      simp only [dispatchStep, pc]
      exact ⟨attends', fun _ => by rw [owes, noRoom (by simp [pc])]; rfl⟩
  | llenTenant slots dispatched u rest =>
      rw [pc] at attends
      have sent : dispatched ≠ 0 := attends
      obtain ⟨attends', owes⟩ := @attends_nextTenant Kwargs tenantId slots dispatched rest
        fun nothing => absurd nothing sent
      simp only [dispatchStep, pc]
      split
      · exact ⟨sent, fun _ => by rw [noRoom (by simp [pc])]; rfl⟩
      · exact ⟨attends', fun _ => by rw [owes, noRoom (by simp [pc]), if_neg sent]; rfl⟩
  | sremDrained slots dispatched u rest =>
      rw [pc] at attends
      have sent : dispatched ≠ 0 := attends
      obtain ⟨attends', owes⟩ := @attends_nextTenant Kwargs tenantId slots dispatched rest
        fun nothing => absurd nothing sent
      simp only [dispatchStep, pc]
      exact ⟨attends', fun _ => by rw [owes, noRoom (by simp [pc]), if_neg sent]; rfl⟩
  | release result =>
      simp only [dispatchStep, pc]
      exact ⟨trivial, fun _ => by rw [noRoom (by simp [pc])]; rfl⟩

/-! ### What a batch with room is paid with -/

/-- The tasks these tenants hold. -/
def World.load (w : World Kwargs) (ids : Finset String) : Nat := ∑ u ∈ ids, w.held u

theorem sum_update (held : String → Nat) (ids : Finset String) (u : String) :
    ∑ v ∈ ids, Function.update held u (held u + 1) v =
      ∑ v ∈ ids, held v + if u ∈ ids then 1 else 0 := by
  have pointwise (v : String) :
      Function.update held u (held u + 1) v = held v + if v = u then 1 else 0 := by
    by_cases same : v = u
    · subst same
      simp
    · simp [same]
  simp only [pointwise, Finset.sum_add_distrib, Finset.sum_ite_eq']

variable {w t : World Kwargs} {a : Action Kwargs} {tenantId : String} {ids : Finset String}

/-- What a tenant holds or has had accepted never gets less. -/
theorem Moved.account (moved : Moved w t a) :
    (w.accepted tenantId).length ≤ (t.accepted tenantId).length ∧
      (w.accepted tenantId).length + w.held tenantId ≤
        (t.accepted tenantId).length + t.held tenantId := by
  cases moved with
  | stays held accepted =>
      rw [held, accepted]
      exact ⟨le_rfl, le_rfl⟩
  | arrives u _ _ _ held accepted =>
      rw [held, accepted]
      refine ⟨le_rfl, Nat.add_le_add_left ?_ _⟩
      by_cases same : tenantId = u
      · subst same
        simp
      · rw [Function.update_of_ne same]
  | sent u payload held accepted =>
      rw [held, accepted]
      by_cases same : tenantId = u
      · subst same
        simp only [Function.update_self, List.length_append, List.length_singleton]
        omega
      · rw [Function.update_of_ne same, Function.update_of_ne same]
        exact ⟨le_rfl, le_rfl⟩

/-- The tenants before this one that hold tasks are among `ids`. -/
def Within (w : World Kwargs) (tenantId : String) (ids : Finset String) : Prop :=
  ∀ u < tenantId, w.held u ≠ 0 → u ∈ ids

/-- An action of a tenant before this one is an action of one of `ids`. -/
def Action.Among (tenantId : String) (ids : Finset String) (a : Action Kwargs) : Prop :=
  ∀ u taskName kwargs, a = .enqueue u taskName kwargs → u < tenantId → u ∈ ids

theorem Moved.within (moved : Moved w t a) (within : Within w tenantId ids)
    (among : a.Among tenantId ids) : Within t tenantId ids := by
  intro u before holds
  cases moved with
  | stays held accepted => exact within u before (held ▸ holds)
  | arrives v taskName kwargs enqueue held accepted =>
      by_cases same : u = v
      · exact same ▸ among v taskName kwargs enqueue (same ▸ before)
      · rw [held, Function.update_of_ne same] at holds
        exact within u before holds
  | sent v payload held accepted =>
      refine within u before ?_
      rw [held]
      by_cases same : u = v
      · subst same
        simp
      · rwa [Function.update_of_ne same]

/-- The first task a batch sends is this tenant's or one of a tenant before it. -/
theorem attends_send {slots dispatched : Nat} {u : String} {payload : Payload Kwargs}
    {rest : List String}
    (attends : (Dispatcher.sendTask slots dispatched u payload rest).Attends tenantId)
    (nothing : dispatched = 0) : u = tenantId ∨ u < tenantId := by
  obtain ⟨-, mem, ordered⟩ := attends nothing
  rcases List.mem_cons.mp mem with same | later
  · exact .inl same.symm
  · exact .inr ((List.pairwise_cons.mp ordered).1 tenantId later)

/-- One step: a batch that finds room is paid for by a task of a tenant before this one or by
one of its own. -/
theorem paid_step {n m : Nat}
    (stepped : Counted FindsRoom (Guarded Orderly (Steps (step codec))) (w, n) a (t, m))
    (every : ∀ u, Accounted codec w u) (covers : SetCovers w)
    (attends : w.dispatcher.Attends tenantId) (work : w.held tenantId ≠ 0)
    (below : ∀ u ∈ ids, u < tenantId) (within : Within w tenantId ids) :
    t.dispatcher.Attends tenantId ∧
      m + t.load ids + (w.accepted tenantId).length + w.dispatcher.owes ≤
        n + w.load ids + (if a.arrivesBefore tenantId then 1 else 0) +
          (t.accepted tenantId).length + t.dispatcher.owes := by
  obtain ⟨⟨orderly, stepped⟩, count⟩ := stepped
  dsimp only at orderly stepped count
  have stepped : step codec w a = some t := stepped
  cases a with
  | enqueue u taskName kwargs =>
      obtain ⟨held, accepted⟩ := held_enqueue stepped
      have load : t.load ids = w.load ids + if u ∈ ids then 1 else 0 := by
        rw [World.load, held, sum_update, World.load]
      have arrives : (if u ∈ ids then 1 else 0) ≤
          if (Action.enqueue u taskName kwargs).arrivesBefore tenantId then 1 else 0 := by
        by_cases mem : u ∈ ids
        · simp [mem, Action.arrivesBefore, below u mem]
        · simp [mem]
      have uncounted : m = n := by simpa [FindsRoom] using count
      obtain rfl := Option.some.inj stepped
      exact ⟨attends, by rw [load, accepted, uncounted]; dsimp only; omega⟩
  | sendRaises => exact absurd rfl orderly.2
  | publish payload =>
      have uncounted : m = n := by simpa [FindsRoom] using count
      obtain rfl := Option.some.inj stepped
      exact ⟨attends, by rw [uncounted]; exact Nat.le_refl _⟩
  | consume =>
      have uncounted : m = n := by simpa [FindsRoom] using count
      obtain ⟨_, _, _, rfl⟩ := consume_eq_some stepped
      exact ⟨attends, by rw [uncounted]; exact Nat.le_refl _⟩
  | lockExpires =>
      have uncounted : m = n := by simpa [FindsRoom] using count
      obtain rfl := Option.some.inj stepped
      exact ⟨attends, by rw [uncounted]; exact Nat.le_refl _⟩
  | dispatch =>
      obtain rfl := Option.some.inj stepped
      obtain ⟨attends', owes⟩ := attends_dispatch every covers attends work
      refine ⟨attends', ?_⟩
      by_cases sends : ∃ slots dispatched u payload rest,
          w.dispatcher = .sendTask slots dispatched u payload rest
      · obtain ⟨slots, dispatched, u, payload, rest, pc⟩ := sends
        have uncounted : m = n := by simpa [FindsRoom, pc] using count
        have load : w.load ids = (dispatchStep codec w).load ids + if u ∈ ids then 1 else 0 := by
          rw [World.load, held_send pc, sum_update, World.load]
        have accepted : ((dispatchStep codec w).accepted tenantId).length =
            (w.accepted tenantId).length + if u = tenantId then 1 else 0 := by
          simp only [dispatchStep, pc]
          by_cases same : u = tenantId
          · subst same
            simp
          · simp [same, Ne.symm same]
        have debt : w.dispatcher.owes ≤ (if u ∈ ids then 1 else 0) +
            if u = tenantId then 1 else 0 := by
          rw [pc] at attends ⊢
          by_cases nothing : dispatched = 0
          · rcases attends_send attends nothing with same | before
            · simp [Dispatcher.owes, nothing, same]
            · have holds : w.held u ≠ 0 := by
                simp [World.held, pc, Dispatcher.inHand]
              simp [Dispatcher.owes, nothing, within u before holds]
          · simp [Dispatcher.owes, nothing]
        rw [uncounted, load, accepted]
        omega
      · have quiet : ∀ slots dispatched u payload rest,
            w.dispatcher ≠ .sendTask slots dispatched u payload rest :=
          fun slots dispatched u payload rest pc => sends ⟨slots, dispatched, u, payload, rest, pc⟩
        obtain ⟨held, accepted⟩ := held_dispatch every quiet
        have load : (dispatchStep codec w).load ids = w.load ids := by
          rw [World.load, held, World.load]
        rw [owes quiet, load, accepted, count]
        omega

/-- A run: as long as fewer than `target` of the tenant's tasks have been accepted, and it
holds the rest of them. -/
theorem paid_run (ids : Finset String) (target : Nat) {as : List (Action Kwargs)}
    {s s' : World Kwargs × Nat}
    (run : Run (Counted FindsRoom (Guarded Orderly (Steps (step codec)))) s as s')
    (every : ∀ u, Accounted codec s.1 u) (covers : SetCovers s.1)
    (attends : s.1.dispatcher.Attends tenantId)
    (enough : target ≤ (s.1.accepted tenantId).length + s.1.held tenantId)
    (below : ∀ u ∈ ids, u < tenantId) (within : Within s.1 tenantId ids)
    (among : ∀ a ∈ as, a.Among tenantId ids) (unserved : (s'.1.accepted tenantId).length < target) :
    s'.2 + s'.1.load ids + (s.1.accepted tenantId).length + s.1.dispatcher.owes ≤
      s.2 + s.1.load ids + arrivalsBefore tenantId as + (s'.1.accepted tenantId).length +
        s'.1.dispatcher.owes := by
  have accepted_le {as : List (Action Kwargs)} {s s' : World Kwargs × Nat}
      (run : Run (Counted FindsRoom (Guarded Orderly (Steps (step codec)))) s as s')
      (every : ∀ u, Accounted codec s.1 u) :
      (s.1.accepted tenantId).length ≤ (s'.1.accepted tenantId).length := by
    induction run with
    | nil => exact le_rfl
    | cons stepped _ ih =>
        have moved := moved_step every stepped.1.1 stepped.1.2
        exact moved.account.1.trans (ih (accounted_step every stepped.1.2))
  induction run with
  | nil s =>
      simp only [arrivalsBefore, List.countP_nil]
      omega
  | @cons s middle s' a as stepped rest ih =>
      have moved := moved_step every stepped.1.1 stepped.1.2
      have every' := accounted_step every stepped.1.2
      have covers' := setCovers_step covers stepped.1.1.1 stepped.1.2
      have later := accepted_le rest every'
      have account : (s.1.accepted tenantId).length + s.1.held tenantId ≤
        (middle.1.accepted tenantId).length + middle.1.held tenantId := moved.account.2
      have first : (s.1.accepted tenantId).length ≤ (middle.1.accepted tenantId).length :=
        moved.account.1
      have work : s.1.held tenantId ≠ 0 := by omega
      obtain ⟨attends', paid⟩ := paid_step (n := s.2) (m := middle.2) stepped every covers attends
        work below within
      have rest_paid := ih every' covers' attends' (enough.trans account)
        (moved.within within (among a List.mem_cons_self))
        (fun b mem => among b (List.mem_cons_of_mem _ mem)) unserved
      have arrivals : arrivalsBefore tenantId (a :: as) =
          arrivalsBefore tenantId as + if a.arrivesBefore tenantId then 1 else 0 := by
        rw [arrivalsBefore, List.countP_cons, arrivalsBefore]
      rw [arrivals]
      omega

/-! ### Whole runs -/

/-- The tenants before this one that have work now or get some in the run. -/
def earlier (tenantId : String) (w : World Kwargs) (as : List (Action Kwargs)) : Finset String :=
  {u ∈ w.tenants ∪ (as.filterMap fun
    | .enqueue u _ _ => some u
    | _ => none).toFinset | u < tenantId}

theorem mem_earlier_of_enqueue {tenantId u taskName : String} {kwargs : Kwargs}
    {w : World Kwargs} {as : List (Action Kwargs)} (mem : .enqueue u taskName kwargs ∈ as)
    (before : u < tenantId) : u ∈ earlier tenantId w as := by
  refine Finset.mem_filter.mpr ⟨Finset.mem_union_right _ ?_, before⟩
  exact List.mem_toFinset.mpr (List.mem_filterMap.mpr ⟨_, mem, rfl⟩)

/-- At rest, what the tenants before this one hold is what stands on the lists of those in
the set. -/
theorem load_earlier {w : World Kwargs} (covers : SetCovers w) (idle : w.dispatcher = .idle)
    (tenantId : String) (as : List (Action Kwargs)) :
    w.load (earlier tenantId w as) = w.workBefore tenantId := by
  have held (u : String) : w.held u = (w.queue u).length := by
    rw [World.held, idle]
    rfl
  have inside : {u ∈ w.tenants | u < tenantId} ⊆ earlier tenantId w as := by
    intro u mem
    obtain ⟨member, before⟩ := Finset.mem_filter.mp mem
    exact Finset.mem_filter.mpr ⟨Finset.mem_union_left _ member, before⟩
  simp only [World.load, World.workBefore, held]
  refine (Finset.sum_subset inside fun u mem outside => ?_).symm
  by_contra work
  have member := covers.covers u fun empty => work (by rw [empty]; rfl)
  exact outside (Finset.mem_filter.mpr ⟨member, (Finset.mem_filter.mp mem).2⟩)

/-- In an orderly run every tenant is accounted for and the set covers the lists. -/
theorem orderly_run {as : List (Action Kwargs)} {w : World Kwargs}
    (run : Run (Guarded Orderly (Steps (step codec))) World.empty as w) :
    (∀ u, Accounted codec w u) ∧ SetCovers w ∧ ∀ u, w.undelivered u = [] := by
  refine ⟨accounted_run run.unguard, ?_, ?_⟩
  · exact run.invariant SetCovers
      (fun _ _ _ held stepped => setCovers_step held stepped.1.1 stepped.2) setCovers_empty
  · exact run.invariant (fun w => ∀ u, w.undelivered u = [])
      (fun _ a _ held stepped => (undelivered_step stepped.2).mpr
        ⟨held, fun raises => stepped.1.2 (by rw [raises])⟩) fun _ => rfl

theorem enqueued_grows {as : List (Action Kwargs)} {w t : World Kwargs}
    (run : Run (Guarded Orderly (Steps (step codec))) w as t) (u : String) :
    w.enqueued u <+: t.enqueued u := by
  induction run with
  | nil => exact List.prefix_rfl
  | @cons s t t' a as stepped _ ih =>
      refine List.IsPrefix.trans ?_ ih
      obtain ⟨-, stepped⟩ := stepped
      have stepped : step codec s a = some t := stepped
      cases a with
      | enqueue tenantId taskName kwargs =>
          obtain rfl := Option.some.inj stepped
          by_cases same : u = tenantId
          · subst same
            simp
          · simp [same]
      | dispatch =>
          obtain rfl := Option.some.inj stepped
          have same : (dispatchStep codec s).enqueued = s.enqueued := by
            unfold dispatchStep
            dsimp only
            (repeat' split) <;> rfl
          rw [same]
      | sendRaises =>
          obtain ⟨_, _, _, _, _, _, rfl⟩ := sendRaises_eq_some stepped
          exact List.prefix_rfl
      | consume =>
          obtain ⟨_, _, _, rfl⟩ := consume_eq_some stepped
          exact List.prefix_rfl
      | publish | lockExpires =>
          obtain rfl := Option.some.inj stepped
          exact List.prefix_rfl

/-- Bounded waiting, from a state in which no dispatch is in progress to another one, with
dispatches that do not overlap in between: the first `p` tasks of a tenant's list have all been
accepted by Celery, in their order and before anything else of the tenant, once so many batches
have found room as there are these tasks, tasks that waited for the tenants before it, and tasks
that came in for those since. Nothing of the tenants that sort after it counts. -/
theorem served_within {before as : List (Action Kwargs)} {w₀ w : World Kwargs} {n p : Nat}
    (reached : Run (Guarded Orderly (Steps (step codec))) World.empty before w₀)
    (idle₀ : w₀.dispatcher = .idle)
    (run : Run (Counted FindsRoom (Guarded Orderly (Steps (step codec)))) (w₀, 0) as (w, n))
    (idle : w.dispatcher = .idle) (tenantId : String) (waiting : p ≤ (w₀.queue tenantId).length)
    (batches : p + w₀.workBefore tenantId + arrivalsBefore tenantId as ≤ n) :
    ∃ later, (w.accepted tenantId).map some =
      (w₀.accepted tenantId).map some ++ ((w₀.queue tenantId).take p).map codec.loads ++ later := by
  obtain ⟨every, covers, none₀⟩ := orderly_run reached
  have run' : Run (Guarded Orderly (Steps (step codec))) w₀ as w := run.uncount
  obtain ⟨everyAfter, -, none_⟩ := orderly_run (reached.append run')
  have held : w₀.held tenantId = (w₀.queue tenantId).length := by
    rw [World.held, idle₀]
    rfl
  have served : (w₀.accepted tenantId).length + p ≤ (w.accepted tenantId).length := by
    by_contra unserved
    have paid := paid_run (earlier tenantId w₀ as) ((w₀.accepted tenantId).length + p) run every
      covers (by rw [idle₀]; trivial) (by dsimp only; omega) (fun u mem => (Finset.mem_filter.mp mem).2)
      (fun u less holds => by
        have queue : w₀.queue u ≠ [] := fun empty => holds (by
          rw [World.held, idle₀, empty]
          rfl)
        exact Finset.mem_filter.mpr ⟨Finset.mem_union_left _ (covers.covers u queue), less⟩)
      (fun a mem u taskName kwargs enqueue less => mem_earlier_of_enqueue (enqueue ▸ mem) less)
      (Nat.lt_of_not_le unserved)
    have owes : w.dispatcher.owes = 0 := by rw [idle]; rfl
    have load := load_earlier covers idle₀ tenantId as
    dsimp only at paid
    omega
  -- both accounts are complete, and the earlier one is a prefix of the later one
  have once₀ := ((every tenantId).exactlyOnce_iff idle₀).mpr (none₀ tenantId)
  have once := ((everyAfter tenantId).exactlyOnce_iff idle).mpr (none_ tenantId)
  have grown : (w₀.enqueued tenantId).map some <+: (w.enqueued tenantId).map some :=
    (enqueued_grows run' tenantId).map some
  rw [ExactlyOnce] at once₀ once
  rw [once₀, once] at grown
  have first : (w₀.accepted tenantId).map some ++ ((w₀.queue tenantId).take p).map codec.loads <+:
      (w₀.accepted tenantId).map some ++ (w₀.queue tenantId).map codec.loads :=
    (List.prefix_append_right_inj _).mpr ((List.take_prefix p _).map codec.loads)
  have total := first.trans grown
  have short : ((w₀.accepted tenantId).map some ++
      ((w₀.queue tenantId).take p).map codec.loads).length ≤
      ((w.accepted tenantId).map some).length := by
    simp only [List.length_append, List.length_map, List.length_take]
    omega
  obtain ⟨later, same⟩ := List.prefix_of_prefix_length_le total (List.prefix_append _ _) short
  exact ⟨later, same.symm⟩

/-- Tenants a and b have a task each. -/
def twoWaiting : List (Action Unit) := [.enqueue "b" "ingest" (), .enqueue "a" "ingest" ()]

/-- A batch that sends both, workers that take them, and a batch that finds nothing. -/
def twoBatches : List (Action Unit) :=
  List.replicate 12 .dispatch ++ [.consume, .consume] ++ List.replicate 4 .dispatch

theorem both_served :
    ∃ w₀ w, exec (guardStep Orderly (step bareCodec)) World.empty twoWaiting = some w₀ ∧
      exec (countStep FindsRoom (guardStep Orderly (step bareCodec))) (w₀, 0) twoBatches =
        some (w, 2) ∧
      ∃ later, (w.accepted "b").map some = (w₀.accepted "b").map some ++
        ((w₀.queue "b").take 1).map bareCodec.loads ++ later :=
  ⟨_, _, rfl, rfl, @served_within Unit bareCodec twoWaiting twoBatches _ _ 2 1
    (guarded_run_of_exec rfl) rfl (counted_run_of_exec rfl) rfl "b" (by decide) (by decide)⟩

end TenantLibrary.FairQueue
