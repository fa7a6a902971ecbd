import TenantLibrary.FairQueue.Model
import TenantLibrary.Lib.Lease

/-!
The dispatch lock, with any number of calls of `dispatch_fair_batch` at once.

Each call has its own `Dispatcher` and sends its commands to the shared database; any
time may pass between two commands. The lock is set with a lifetime of ten seconds and
deleted without a look at who set it, so it is a `Lease`: `lease_run_of_run` maps every
run of the calls to a run of the lease. It excludes as long as every call deletes the
lock within ten seconds of setting it (`lock_excludes`), and `late_call_overlaps` is a
run in which one does not.
-/

namespace TenantLibrary.FairQueue

open TenantLibrary.Lib

variable {Kwargs : Type} {codec : Codec Kwargs}

/-- `ex=10`, in milliseconds. -/
def lockTtl : Nat := 10 * 1000

/-- The call is between its successful `SET NX` and its `DEL`. -/
def Dispatcher.holds : Dispatcher Kwargs → Bool
  | .idle => false
  | _ => true

/-- The calls, the database they share, and the lock. Redis keeps when the lock's key
disappears; who set it, and when each call did, is a record that no step reads. The
dispatcher of `world` is the one of the call that moved last. -/
structure System (Kwargs : Type) where
  world : World Kwargs
  calls : Nat → Dispatcher Kwargs
  lease : Lease Nat

inductive SystemAction (Kwargs : Type) where
  | call (i : Nat)
  | sendRaises (i : Nat)
  | enqueue (tenantId taskName : String) (kwargs : Kwargs)
  | publish (payload : Payload Kwargs)
  | consume
  | tick (elapsed : Nat)

namespace System

/-- No call has begun, and the lock is free. -/
def initial (world : World Kwargs) : System Kwargs where
  world := { world with redis := world.redis.del dispatchLockKey }
  calls _ := .idle
  lease := ⟨0, none, fun _ => none⟩

/-- What call `i` sees. -/
def view (s : System Kwargs) (i : Nat) : World Kwargs := { s.world with dispatcher := s.calls i }

/-- Call `i` has moved to this world. -/
def moved (s : System Kwargs) (i : Nat) (world : World Kwargs) : System Kwargs where
  world := world
  calls := Function.update s.calls i world.dispatcher
  lease :=
    match (s.calls i).holds, world.dispatcher.holds with
    | false, true => s.lease.acquire lockTtl i
    | true, false => s.lease.release i
    | _, _ => s.lease

end System

/-- One step of the system. -/
def systemStep (codec : Codec Kwargs) (s : System Kwargs) :
    SystemAction Kwargs → Option (System Kwargs)
  | .call i => (step codec (s.view i) .dispatch).map (s.moved i)
  | .sendRaises i => (step codec (s.view i) .sendRaises).map (s.moved i)
  | .enqueue tenantId taskName kwargs =>
      (step codec s.world (.enqueue tenantId taskName kwargs)).map fun world => { s with world }
  | .publish payload => (step codec s.world (.publish payload)).map fun world => { s with world }
  | .consume => (step codec s.world .consume).map fun world => { s with world }
  | .tick elapsed =>
      let lease := s.lease.tick elapsed
      let redis :=
        if lease.lock.isNone then s.world.redis.del dispatchLockKey else s.world.redis
      some { s with world := { s.world with redis }, lease }

/-! ### What is to hold -/

/-- At most one call is between its `SET NX` and its `DEL`. -/
def System.MutuallyExclusive (s : System Kwargs) : Prop :=
  ∀ i j, (s.calls i).holds → (s.calls j).holds → i = j

/-- A call that is about to send its `DEL` deletes no lock that another call set. -/
def System.DeletesOwn (s : System Kwargs) : Prop :=
  ∀ i result, s.calls i = .release result → ∀ owner expiry,
    s.lease.lock = some (owner, expiry) → owner = i

/-- Time does not reach ten seconds after the `SET` of a call that has not sent its
`DEL`. -/
def InTime (s : System Kwargs) : SystemAction Kwargs → Prop
  | .tick elapsed => ∀ i t, s.lease.since i = some t → s.lease.now + elapsed < t + lockTtl
  | _ => True

/-! ### A command and the lock -/

/-- What the next command of a call does to the lock. -/
inductive LockEffect (w w' : World Kwargs) : Prop where
  | refused (outside : w.dispatcher.holds = false) (same : w' = w)
  | acquired (outside : w.dispatcher.holds = false)
      (free : w.redis.strings dispatchLockKey = none) (inside : w'.dispatcher.holds = true)
      (set : (w'.redis.strings dispatchLockKey).isSome)
  | kept (before : w.dispatcher.holds = true) (after : w'.dispatcher.holds = true)
      (same : w'.redis.strings = w.redis.strings)
  | released (before : w.dispatcher.holds = true) (after : w'.dispatcher.holds = false)
      (deleted : w'.redis.strings dispatchLockKey = none)

@[simp] theorem holds_nextTenant (slots dispatched : Nat) (ids : List String) :
    (Dispatcher.nextTenant slots dispatched ids : Dispatcher Kwargs).holds = true := by
  cases ids with
  | nil => rfl
  | cons t rest =>
      by_cases full : dispatched ≥ slots <;>
        simp [Dispatcher.nextTenant, Dispatcher.holds, full]

theorem lockEffect_dispatch (w : World Kwargs) : LockEffect w (dispatchStep codec w) := by
  -- a command that is neither the `SET` nor the `DEL` keeps the call inside
  have kept {w' : World Kwargs} (before : w.dispatcher.holds = true)
      (after : w'.dispatcher.holds = true) (same : w'.redis.strings = w.redis.strings) :
      LockEffect w w' := .kept before after same
  unfold dispatchStep
  cases at_ : w.dispatcher with
  | idle =>
      have outside : w.dispatcher.holds = false := by rw [at_]; rfl
      cases key : w.redis.strings dispatchLockKey with
      | some value =>
          simp only [Redis.setNx, key]
          exact .refused outside rfl
      | none =>
          simp only [Redis.setNx, key]
          exact .acquired outside key rfl (by simp)
  | llenCelery =>
      dsimp only
      split <;> exact kept (by rw [at_]; rfl) rfl rfl
  | smembers slots => exact kept (by rw [at_]; rfl) (holds_nextTenant ..) rfl
  | lpop slots dispatched tenantId rest =>
      dsimp only
      cases queue : w.redis.lists (queueKey tenantId) with
      | nil =>
          rw [Redis.lpop_nil _ _ queue]
          exact kept (by rw [at_]; rfl) rfl rfl
      | cons raw later =>
          rw [Redis.lpop_cons _ _ _ queue]
          dsimp only
          split <;> exact kept (by rw [at_]; rfl) rfl rfl
  | sremEmpty slots dispatched tenantId rest =>
      exact kept (by rw [at_]; rfl) (holds_nextTenant ..) rfl
  | sendTask slots dispatched tenantId payload rest => exact kept (by rw [at_]; rfl) rfl rfl
  | llenTenant slots dispatched tenantId rest =>
      dsimp only
      split
      · exact kept (by rw [at_]; rfl) rfl rfl
      · exact kept (by rw [at_]; rfl) (holds_nextTenant ..) rfl
  | sremDrained slots dispatched tenantId rest =>
      exact kept (by rw [at_]; rfl) (holds_nextTenant ..) rfl
  | release result => exact .released (by rw [at_]; rfl) rfl (by simp [Redis.del])

theorem lockEffect_step {w w' : World Kwargs} {a : Action Kwargs}
    (isCall : a = .dispatch ∨ a = .sendRaises) (stepped : step codec w a = some w') :
    LockEffect w w' := by
  rcases isCall with rfl | rfl
  · obtain rfl := Option.some.inj stepped
    exact lockEffect_dispatch w
  · simp only [step] at stepped
    split at stepped
    case h_1 at_ =>
      obtain rfl := Option.some.inj stepped
      exact .kept (by rw [at_]; rfl) rfl rfl
    case h_2 => cases stepped

/-! ### The calls share a lease -/

/-- The lease says which calls are inside and whether the key is there. -/
structure Linked (s : System Kwargs) : Prop where
  calls : ∀ i, (s.calls i).holds = (s.lease.since i).isSome
  key : (s.world.redis.strings dispatchLockKey).isSome = s.lease.lock.isSome

theorem linked_initial (world : World Kwargs) : Linked (System.initial world) :=
  ⟨fun _ => rfl, by simp [System.initial, Redis.del]⟩

/-- The step is a step of the lease, timely if it is in time, or none. -/
def Simulated (s : System Kwargs) (a : SystemAction Kwargs) (t : System Kwargs) : Prop :=
  t.lease = s.lease ∨ ∃ event, Lease.Step lockTtl s.lease event t.lease ∧
    (InTime s a → s.lease.Timely lockTtl event)

/-- The calls and the lease stay linked when call `i` moves and the lease changes for it. -/
theorem holds_update {s : System Kwargs} {since : Nat → Option Nat} {i : Nat}
    {d : Dispatcher Kwargs} {at_ : Option Nat}
    (linked : ∀ j, (s.calls j).holds = (since j).isSome) (own : d.holds = at_.isSome) (j : Nat) :
    (Function.update s.calls i d j).holds = (Function.update since i at_ j).isSome := by
  by_cases same : j = i
  · subst same
    simpa using own
  · simpa [same] using linked j

theorem simulated_moved {s : System Kwargs} {a : SystemAction Kwargs} {i : Nat} {w : World Kwargs}
    (linked : Linked s) (effect : LockEffect (s.view i) w) :
    Linked (s.moved i w) ∧ Simulated s a (s.moved i w) := by
  have inside : (s.view i).dispatcher.holds = (s.lease.since i).isSome := linked.calls i
  cases effect with
  | refused outside same =>
      subst same
      have unchanged : (s.moved i (s.view i)).lease = s.lease := by
        have outside : (s.calls i).holds = false := outside
        simp [System.moved, System.view, outside]
      refine ⟨⟨fun j => ?_, ?_⟩, .inl unchanged⟩
      · rw [unchanged]
        simpa [System.moved, System.view] using linked.calls j
      · rw [unchanged]
        exact linked.key
  | acquired outside free isInside set =>
      rw [outside] at inside
      have entered : (s.moved i w).lease = s.lease.acquire lockTtl i := by
        have outside : (s.calls i).holds = false := outside
        simp [System.moved, outside, isInside]
      have unlocked : s.lease.lock = none := by
        have none := linked.key.symm.trans (congrArg Option.isSome free)
        simpa using none
      refine ⟨⟨fun j => ?_, ?_⟩, .inr ⟨.acquire i, ?_, fun _ => trivial⟩⟩
      · rw [entered]
        exact holds_update linked.calls (by simpa using isInside) j
      · rw [entered]
        exact set
      · rw [entered]
        exact .acquire i (by simpa using inside.symm) unlocked
  | kept before after same =>
      have unchanged : (s.moved i w).lease = s.lease := by
        have before : (s.calls i).holds = true := before
        simp [System.moved, before, after]
      refine ⟨⟨fun j => ?_, ?_⟩, .inl unchanged⟩
      · rw [unchanged, ← Function.update_eq_self i s.lease.since]
        exact holds_update linked.calls (after.trans (before.symm.trans inside)) j
      · rw [unchanged, ← linked.key]
        exact congrArg (fun strings : String → Option String =>
          (strings dispatchLockKey).isSome) same
  | released before after deleted =>
      have left : (s.moved i w).lease = s.lease.release i := by
        have before : (s.calls i).holds = true := before
        simp [System.moved, before, after]
      refine ⟨⟨fun j => ?_, ?_⟩, .inr ⟨.release i, ?_, fun _ => trivial⟩⟩
      · rw [left]
        exact holds_update linked.calls (by simpa using after) j
      · rw [left]
        simpa [Lease.release, System.moved] using deleted
      · rw [left]
        exact .release i (inside.symm.trans before)

/-- What happens outside the calls does not touch the lock. -/
theorem simulated_world {s : System Kwargs} {a : SystemAction Kwargs} {world : World Kwargs}
    (linked : Linked s) (same : world.redis.strings = s.world.redis.strings) :
    Linked { s with world } ∧ Simulated s a { s with world } :=
  ⟨⟨linked.calls, by simpa [same] using linked.key⟩, .inl rfl⟩

theorem simulated_step {s t : System Kwargs} {a : SystemAction Kwargs} (linked : Linked s)
    (stepped : systemStep codec s a = some t) : Linked t ∧ Simulated s a t := by
  cases a with
  | call i =>
      rw [systemStep, Option.map_eq_some_iff] at stepped
      obtain ⟨w, moved, rfl⟩ := stepped
      exact simulated_moved linked (lockEffect_step (.inl rfl) moved)
  | sendRaises i =>
      rw [systemStep, Option.map_eq_some_iff] at stepped
      obtain ⟨w, moved, rfl⟩ := stepped
      exact simulated_moved linked (lockEffect_step (.inr rfl) moved)
  | enqueue tenantId taskName kwargs =>
      rw [systemStep, Option.map_eq_some_iff] at stepped
      obtain ⟨w, moved, rfl⟩ := stepped
      obtain rfl := Option.some.inj moved
      exact simulated_world linked rfl
  | publish payload =>
      rw [systemStep, Option.map_eq_some_iff] at stepped
      obtain ⟨w, moved, rfl⟩ := stepped
      obtain rfl := Option.some.inj moved
      exact simulated_world linked rfl
  | consume =>
      rw [systemStep, Option.map_eq_some_iff] at stepped
      obtain ⟨w, moved, rfl⟩ := stepped
      simp only [step] at moved
      split at moved
      · cases moved
      · obtain rfl := Option.some.inj moved
        exact simulated_world linked rfl
  | tick elapsed =>
      obtain rfl := Option.some.inj stepped
      refine ⟨⟨linked.calls, ?_⟩, .inr ⟨.tick elapsed, .tick elapsed, fun inTime => inTime⟩⟩
      cases lock : (s.lease.tick elapsed).lock with
      | none => simp [Redis.del]
      | some held =>
          have before : s.lease.lock = some held := (Option.filter_eq_some_iff.mp lock).1
          simpa [lock, before] using linked.key

/-- Every run of the calls is a run of the lease; a run in time is a timely one. -/
theorem lease_run_of_run {s t : System Kwargs} {actions : List (SystemAction Kwargs)}
    (linked : Linked s) (run : Run (Guarded InTime (Steps (systemStep codec))) s actions t) :
    Linked t ∧ ∃ events,
      Run (Guarded (Lease.Timely lockTtl) (Lease.Step lockTtl)) s.lease events t.lease := by
  refine run.invariant (fun t => Linked t ∧ ∃ events,
    Run (Guarded (Lease.Timely lockTtl) (Lease.Step lockTtl)) s.lease events t.lease) ?_
    ⟨linked, [], .nil _⟩
  rintro u a v ⟨linkedNow, events, before⟩ ⟨inTime, stepped⟩
  obtain ⟨linkedAfter, unchanged | ⟨event, step, timely⟩⟩ := simulated_step linkedNow stepped
  · exact ⟨linkedAfter, events, unchanged ▸ before⟩
  · exact ⟨linkedAfter, events ++ [event], before.append (.cons ⟨timely inTime, step⟩ (.nil _))⟩

/-! ### What is to hold, and when -/

/-- The lock excludes, and is deleted by the call that set it, in every run in which no call
is still inside ten seconds after its `SET`. -/
theorem lock_excludes {world : World Kwargs} {s : System Kwargs}
    {actions : List (SystemAction Kwargs)}
    (run : Run (Guarded InTime (Steps (systemStep codec))) (System.initial world) actions s) :
    s.MutuallyExclusive ∧ s.DeletesOwn := by
  obtain ⟨linked, events, leased⟩ := lease_run_of_run (linked_initial world) run
  obtain ⟨exclusive, owned⟩ := Lease.exclusive_of_timely leased fun _ => rfl
  constructor
  · intro i j inside inside'
    exact exclusive i j (linked.calls i ▸ inside) (linked.calls j ▸ inside')
  · intro i result releasing owner expiry lock
    have inside : (s.calls i).holds = true := by rw [releasing]; rfl
    obtain ⟨expiry', own⟩ := owned i (linked.calls i ▸ inside)
    exact congrArg Prod.fst (Option.some.inj (lock.symm.trans own))

/-- A call sets the lock again right after the first one deleted it. -/
theorem calls_in_turn : ∃ s : System Unit,
    Run (Guarded InTime (Steps (systemStep bareCodec))) (System.initial World.empty)
      [.call 0, .tick 9999, .call 0, .call 0, .call 0, .call 1] s ∧
      (s.calls 1).holds ∧ s.MutuallyExclusive ∧ s.DeletesOwn := by
  have inTime (elapsed : Nat) (short : elapsed < lockTtl) :
      ∀ i t, (Function.update (fun _ : Nat => (none : Option Nat)) 0 (some 0)) i = some t →
        0 + elapsed < t + lockTtl := by
    intro i t _
    omega
  have run : Run (Guarded InTime (Steps (systemStep bareCodec))) (System.initial World.empty)
      [.call 0, .tick 9999, .call 0, .call 0, .call 0, .call 1] _ :=
    .cons ⟨trivial, rfl⟩ <| .cons ⟨inTime 9999 (by decide), rfl⟩ <| .cons ⟨trivial, rfl⟩ <|
      .cons ⟨trivial, rfl⟩ <| .cons ⟨trivial, rfl⟩ <| .cons ⟨trivial, rfl⟩ <| .nil _
  exact ⟨_, run, by decide +kernel, lock_excludes run⟩

/-- When the lock disappears on a call, any other call that begins gets in. -/
theorem late_tick_overlaps {s : System Kwargs} {i j elapsed : Nat} (inside : (s.calls i).holds)
    (idle : s.calls j = .idle) (late : (s.lease.tick elapsed).lock = none) :
    ∃ t, Run (Steps (systemStep codec)) s [.tick elapsed, .call j] t ∧ ¬ t.MutuallyExclusive := by
  let redis := s.world.redis.del dispatchLockKey
  let u : System Kwargs :=
    { s with world := { s.world with redis }, lease := s.lease.tick elapsed }
  have ticked : systemStep codec s (.tick elapsed) = some u := by
    simp only [systemStep, late, Option.isNone_none, if_true]
    rfl
  have free : (u.view j).redis.strings dispatchLockKey = none := by
    simp [u, redis, System.view, Redis.del]
  have entered : (dispatchStep codec (u.view j)).dispatcher = .llenCelery := by
    have idle : (u.view j).dispatcher = .idle := idle
    simp only [dispatchStep, idle, Redis.setNx, free]
  have other : i ≠ j := by
    rintro rfl
    rw [idle] at inside
    cases inside
  refine ⟨u.moved j (dispatchStep codec (u.view j)),
    .cons ticked (.cons rfl (.nil _)), fun exclusive => other (exclusive i j ?_ ?_)⟩
  · simpa [System.moved, u, other] using inside
  · simp only [System.moved, Function.update_self, entered]
    rfl

/-- The first call is still in its batch when the lock disappears; the second one gets in,
and the first one is about to delete the lock of the second. -/
theorem late_call_overlaps : ∃ s : System Unit,
    Run (Steps (systemStep bareCodec)) (System.initial World.empty)
      [.call 0, .call 0, .tick 10000, .call 1, .call 0] s ∧
      ¬ s.MutuallyExclusive ∧ ¬ s.DeletesOwn := by
  have computed : (exec (systemStep bareCodec) (System.initial World.empty)
      [.call 0, .call 0, .tick 10000, .call 1, .call 0]).any (fun s =>
        (s.calls 0 = .release (some 0)) && (s.calls 1).holds &&
          (s.lease.lock = some (1, 20000))) = true := by decide +kernel
  obtain ⟨s, reached, final⟩ := (Option.any_eq_true _ _).mp computed
  simp only [Bool.and_eq_true, decide_eq_true_eq] at final
  obtain ⟨⟨releasing, inside⟩, lock⟩ := final
  refine ⟨s, run_of_exec reached, fun exclusive => ?_, fun own => ?_⟩
  · have same := exclusive 0 1 (by rw [releasing]; rfl) inside
    cases same
  · cases own 0 _ releasing _ _ lock

end TenantLibrary.FairQueue
