import TenantLibrary.FairQueue.Lock

/-!
One whole call of `dispatch_fair_batch` while nobody else sends commands.

`dispatchFairBatch` runs the commands of `dispatchStep` to the end of the call. What a
call does is said over the state it finds: which members it visits (`World.Visited`),
which of them are served (`World.served`), and the state it leaves (`Dispatched`). The
proof follows the `for` loop: `Swept` is the effect of visiting a list of tenants,
`visit` is one tenant of it, and `sweep` the induction over the rest.
-/

namespace TenantLibrary.FairQueue

open TenantLibrary.Lib

variable {Kwargs : Type} {codec : Codec Kwargs}

/-! ### A whole call -/

/-- A bound on the commands a call has yet to send before its `DEL`. -/
def World.commandsLeft (w : World Kwargs) : Nat :=
  match w.dispatcher with
  | .idle | .release _ => 0
  | .llenCelery => 4 * (sorted w.tenants).length + 2
  | .smembers _ => 4 * (sorted w.tenants).length + 1
  | .lpop _ _ _ rest => 4 * rest.length + 4
  | .sendTask _ _ _ _ rest => 4 * rest.length + 3
  | .llenTenant _ _ _ rest => 4 * rest.length + 2
  | .sremEmpty _ _ _ rest | .sremDrained _ _ _ rest => 4 * rest.length + 1

/-- The call has commands to send before its `DEL`. -/
def Dispatcher.working : Dispatcher Kwargs → Bool
  | .idle | .release _ => false
  | _ => true

theorem commandsLeft_nextTenant (w : World Kwargs) (redis : Redis) (slots dispatched : Nat)
    (ids : List String) :
    { w with redis, dispatcher := .nextTenant slots dispatched ids : World Kwargs }.commandsLeft
      ≤ 4 * ids.length := by
  cases ids with
  | nil => simp [Dispatcher.nextTenant, World.commandsLeft]
  | cons t rest =>
      by_cases full : dispatched ≥ slots <;>
        simp [Dispatcher.nextTenant, World.commandsLeft, full]
      omega

theorem commandsLeft_dispatchStep {w : World Kwargs} (working : w.dispatcher.working) :
    (dispatchStep codec w).commandsLeft < w.commandsLeft := by
  have next (redis : Redis) (slots dispatched : Nat) (ids : List String) :=
    commandsLeft_nextTenant w redis slots dispatched ids
  unfold dispatchStep
  cases at_ : w.dispatcher with
  | idle => simp [at_, Dispatcher.working] at working
  | release result => simp [at_, Dispatcher.working] at working
  | llenCelery =>
      dsimp only
      split <;> simp [World.commandsLeft, at_, World.tenants]
  | smembers slots =>
      have bound := next w.redis slots 0 (sorted (w.redis.smembers tenantsSetKey))
      have now : w.commandsLeft = 4 * (sorted (w.redis.smembers tenantsSetKey)).length + 1 := by
        simp [World.commandsLeft, at_, World.tenants, Redis.smembers]
      dsimp only
      omega
  | lpop slots dispatched t rest =>
      dsimp only
      split
      · simp [World.commandsLeft, at_]
      · split <;> simp [World.commandsLeft, at_]
  | sendTask slots dispatched t payload rest => simp [World.commandsLeft, at_]
  | sremEmpty slots dispatched t rest =>
      have bound := next (w.redis.srem tenantsSetKey t) slots dispatched rest
      have now : w.commandsLeft = 4 * rest.length + 1 := by simp [World.commandsLeft, at_]
      dsimp only
      omega
  | llenTenant slots dispatched t rest =>
      have bound := next w.redis slots dispatched rest
      have now : w.commandsLeft = 4 * rest.length + 2 := by simp [World.commandsLeft, at_]
      dsimp only
      split
      · simp [World.commandsLeft, at_]
      · omega
  | sremDrained slots dispatched t rest =>
      have bound := next (w.redis.srem tenantsSetKey t) slots dispatched rest
      have now : w.commandsLeft = 4 * rest.length + 1 := by simp [World.commandsLeft, at_]
      dsimp only
      omega

/-- The rest of a call that holds the lock: what it returns, `none` when it raises, and
the world after its `DEL`. -/
def finish (codec : Codec Kwargs) (w : World Kwargs) : Option Nat × World Kwargs :=
  if _ : w.dispatcher.working then finish codec (dispatchStep codec w)
  else
    match w.dispatcher with
    | .release result => (result, dispatchStep codec w)
    | _ => (none, w)
termination_by w.commandsLeft
decreasing_by exact commandsLeft_dispatchStep ‹_›

/-- `dispatch_fair_batch`, called while nobody else sends commands. -/
def dispatchFairBatch (codec : Codec Kwargs) (w : World Kwargs) : Option Nat × World Kwargs :=
  let w' := dispatchStep codec w
  match w'.dispatcher with
  | .idle => (some 0, w')  -- the lock was held
  | _ => finish codec w'

theorem finish_working {w : World Kwargs} (working : w.dispatcher.working) :
    finish codec w = finish codec (dispatchStep codec w) := by
  rw [finish, dif_pos working]

theorem finish_release {w : World Kwargs} {result : Option Nat}
    (leaving : w.dispatcher = .release result) :
    finish codec w = (result, dispatchStep codec w) := by
  rw [finish, dif_neg (by simp [leaving, Dispatcher.working])]
  simp only [leaving]

/-! ### Every exit deletes the lock -/

/-- A call that is past its `SET`, or whose `DEL` is done, ends without the lock. -/
theorem lock_finish {w : World Kwargs}
    (begun : w.dispatcher.holds ∨ w.redis.strings dispatchLockKey = none) :
    (finish codec w).2.redis.strings dispatchLockKey = none := by
  induction w using finish.induct codec with
  | case1 w working ih =>
      rw [finish_working working]
      apply ih
      have holds : w.dispatcher.holds := by
        cases at_ : w.dispatcher <;> simp_all [Dispatcher.working, Dispatcher.holds]
      rcases @lockEffect_dispatch Kwargs codec w with
        ⟨outside, same⟩ | ⟨outside, free, inside, set⟩ | ⟨before, after, same⟩ |
        ⟨before, after, deleted⟩
      · exact absurd (outside.symm.trans holds) Bool.false_ne_true
      · exact absurd (outside.symm.trans holds) Bool.false_ne_true
      · exact .inl after
      · exact .inr deleted
  | case2 w working result leaving =>
      rw [finish_release leaving]
      simp [dispatchStep, leaving, Redis.del]
  | case3 w working other =>
      cases at_ : w.dispatcher with
      | idle =>
          rw [finish, dif_neg working]
          simpa [at_, Dispatcher.holds] using begun
      | release result => exact absurd at_ (other result)
      | _ => simp [at_, Dispatcher.working] at working

/-! ### What a call finds -/

namespace World

/-- The task at the head of a tenant's queue. -/
def headTask (codec : Codec Kwargs) (w : World Kwargs) (tenantId : String) :
    Option (Payload Kwargs) :=
  (w.queue tenantId).head?.bind codec.loads

/-- The members of the set with work to do. -/
def busy (w : World Kwargs) : Finset String := {t ∈ w.tenants | w.queue t ≠ []}

/-- The tenants whose head is sent: the first busy ones, one for each slot. -/
def served (w : World Kwargs) (slots : Nat) : List String := (sorted w.busy).take slots

/-- The loop comes to the tenant before the slots are used up. -/
def Visited (w : World Kwargs) (slots : Nat) (tenantId : String) : Prop :=
  tenantId ∈ w.tenants ∧ {u ∈ w.busy | u < tenantId}.card < slots

end World

/-- What a call with this many slots leaves behind, lock aside. -/
structure Dispatched (codec : Codec Kwargs) (w : World Kwargs) (slots : Nat)
    (after : World Kwargs) : Prop where
  sent : ∃ payloads, after.celery = w.celery ++ payloads ∧
    payloads.map some = (w.served slots).map (w.headTask codec)
  popped : ∀ t ∈ w.served slots, after.queue t = (w.queue t).tail
  lists : ∀ key, (∀ t ∈ w.served slots, key ≠ queueKey t) →
    after.redis.lists key = w.redis.lists key
  tenants : ∀ t, t ∈ after.tenants ↔ t ∈ w.tenants ∧ ¬ (w.Visited slots t ∧ after.queue t = [])
  sets : ∀ key, key ≠ tenantsSetKey → after.redis.sets key = w.redis.sets key
  strings : after.redis.strings = Function.update w.redis.strings dispatchLockKey none

/-! ### The tenants the loop comes to -/

theorem sorted_filter (ids : Finset String) (p : String → Prop) [DecidablePred p] :
    sorted {id ∈ ids | p id} = (sorted ids).filter (p ·) :=
  List.Pairwise.eq_of_mem_iff (sorted_pairwise _) ((sorted_pairwise ids).filter p) (by simp)

theorem length_sorted (ids : Finset String) : (sorted ids).length = ids.card := by
  have same := congrArg Multiset.card (coe_sorted ids)
  simpa using same

/-- The tenants the loop visits, with this many slots left: an empty queue uses none. -/
def visited (queue : String → List String) : Nat → List String → List String
  | 0, _ => []
  | _ + 1, [] => []
  | slots + 1, id :: rest =>
      id :: visited queue (if queue id = [] then slots + 1 else slots) rest

variable {queue : String → List String}

theorem visited_subset (slots : Nat) (ids : List String) {t : String}
    (visits : t ∈ visited queue slots ids) : t ∈ ids := by
  induction ids generalizing slots with
  | nil => cases slots <;> simp [visited] at visits
  | cons id rest ih =>
      cases slots with
      | zero => simp [visited] at visits
      | succ slots =>
          rcases List.mem_cons.mp visits with rfl | later
          · exact List.mem_cons_self
          · exact List.mem_cons_of_mem _ (ih _ later)

/-- Only the queues of the list itself decide. -/
theorem visited_congr {queue' : String → List String} (slots : Nat) {ids : List String}
    (same : ∀ t ∈ ids, queue' t = queue t) :
    visited queue' slots ids = visited queue slots ids := by
  induction ids generalizing slots with
  | nil => cases slots <;> rfl
  | cons id rest ih =>
      cases slots with
      | zero => rfl
      | succ slots =>
          simp only [visited, same id List.mem_cons_self]
          rw [ih _ fun t mem => same t (List.mem_cons_of_mem _ mem)]

/-- Served are the visited tenants with a task: one for each slot, while they last. -/
theorem visited_busy (slots : Nat) (ids : List String) :
    (visited queue slots ids).filter (queue · ≠ []) =
      (ids.filter (queue · ≠ [])).take slots := by
  induction ids generalizing slots with
  | nil => cases slots <;> simp [visited]
  | cons id rest ih =>
      cases slots with
      | zero => simp [visited]
      | succ slots =>
          by_cases empty : queue id = []
          · rw [List.filter_cons_of_neg (by simp [empty]), ← ih]
            simp [visited, empty]
          · rw [List.filter_cons_of_pos (by simp [empty]), List.take_succ_cons, ← ih]
            simp [visited, empty]

/-- A tenant is visited when fewer busy tenants than there are slots stand before it. -/
theorem mem_visited (slots : Nat) {ids : List String} (ordered : ids.Pairwise (· < ·))
    {t : String} :
    t ∈ visited queue slots ids ↔
      t ∈ ids ∧ (ids.filter fun u => queue u ≠ [] ∧ u < t).length < slots := by
  induction ids generalizing slots with
  | nil => cases slots <;> simp [visited]
  | cons id rest ih =>
      obtain ⟨before, ordered⟩ := List.pairwise_cons.mp ordered
      cases slots with
      | zero => simp [visited]
      | succ slots =>
          rw [visited, List.mem_cons, ih _ ordered]
          by_cases here : t = id
          · -- nothing of an ordered list stands before its first
            have none_before :
                ((id :: rest).filter fun u => queue u ≠ [] ∧ u < t) = [] := by
              simp only [List.filter_eq_nil_iff, decide_eq_true_eq, here]
              rintro u mem ⟨-, less⟩
              rcases List.mem_cons.mp mem with rfl | later
              · exact lt_irrefl _ less
              · exact less.not_gt (before u later)
            rw [none_before]
            simp [here]
          · by_cases later : t ∈ rest
            · have less := before t later
              by_cases empty : queue id = []
              · rw [List.filter_cons_of_neg (by simp only [empty]; simp)]
                simp [here, later, empty]
              · rw [List.filter_cons_of_pos (by simp only [decide_eq_true_eq]; exact ⟨empty, less⟩)]
                simp only [here, later, empty, List.mem_cons_of_mem, List.length_cons, if_false,
                  true_and, false_or, Nat.add_lt_add_iff_right]
            · simp [here, later]

/-! ### The loop -/

/-- The effect of visiting these tenants. -/
structure Swept (codec : Codec Kwargs) (w : World Kwargs) (ids : List String)
    (after : World Kwargs) : Prop where
  celery : after.celery = w.celery ++ ids.filterMap (w.headTask codec)
  queues : ∀ t ∈ ids, after.queue t = (w.queue t).tail
  lists : ∀ key, (∀ t ∈ ids, key ≠ queueKey t) → after.redis.lists key = w.redis.lists key
  tenants : ∀ t, t ∈ after.tenants ↔ t ∈ w.tenants ∧ ¬ (t ∈ ids ∧ (w.queue t).tail = [])
  sets : ∀ key, key ≠ tenantsSetKey → after.redis.sets key = w.redis.sets key
  strings : after.redis.strings = w.redis.strings

theorem Swept.nil (w : World Kwargs) : Swept codec w [] w where
  celery := by simp
  queues := by simp
  lists _ _ := rfl
  tenants := by simp
  sets _ _ := rfl
  strings := rfl

/-- A tenant that is not visited keeps its queue. -/
theorem Swept.queue_eq {w after : World Kwargs} {ids : List String} {t : String}
    (swept : Swept codec w ids after) (apart : t ∉ ids) : after.queue t = w.queue t :=
  swept.lists _ fun _ mem same => apart (queueKey_inj.mp same ▸ mem)

theorem Swept.cons {w middle after : World Kwargs} {t : String} {ids : List String}
    (first : Swept codec w [t] middle) (rest : Swept codec middle ids after) (apart : t ∉ ids) :
    Swept codec w (t :: ids) after := by
  have kept {u : String} (mem : u ∈ ids) : middle.queue u = w.queue u :=
    first.queue_eq (by rintro same; exact apart (List.mem_singleton.mp same ▸ mem))
  have heads : ids.filterMap (middle.headTask codec) = ids.filterMap (w.headTask codec) :=
    List.filterMap_congr fun u mem => by simp only [World.headTask, kept mem]
  constructor
  case celery =>
    rw [rest.celery, first.celery, heads, List.append_assoc, ← List.filterMap_append]
    rfl
  case queues =>
    intro u mem
    rcases List.mem_cons.mp mem with rfl | later
    · rw [rest.queue_eq apart, first.queues u List.mem_cons_self]
    · rw [rest.queues u later, kept later]
  case lists =>
    intro key foreign
    rw [rest.lists key fun u mem => foreign u (List.mem_cons_of_mem _ mem),
      first.lists key (by simpa using foreign t List.mem_cons_self)]
  case tenants =>
    intro u
    rw [rest.tenants, first.tenants]
    by_cases later : u ∈ ids
    · have other : u ≠ t := fun same => apart (same ▸ later)
      simp [later, other, kept later]
    · simp [later]
  case sets =>
    intro key foreign
    rw [rest.sets key foreign, first.sets key foreign]
  case strings => rw [rest.strings, first.strings]

/-- The world of one visit: the head is gone, and so is the tenant when nothing is left. -/
theorem swept_one {w after : World Kwargs} {t : String}
    (celery : after.celery = w.celery ++ (w.headTask codec t).toList)
    (lists : after.redis.lists =
      Function.update w.redis.lists (queueKey t) (w.queue t).tail)
    (sets : after.redis.sets =
      if (w.queue t).tail = [] then
        Function.update w.redis.sets tenantsSetKey (w.tenants.erase t)
      else w.redis.sets)
    (strings : after.redis.strings = w.redis.strings) : Swept codec w [t] after where
  celery := by
    rw [celery]
    cases head : w.headTask codec t <;> simp [head]
  queues := by simp [World.queue, lists]
  lists key foreign := by
    rw [lists, Function.update_of_ne (foreign t List.mem_cons_self)]
  tenants u := by
    by_cases drained : (w.queue t).tail = []
    · by_cases same : u = t
      · subst same
        simp [World.tenants, sets, drained]
      · simp [World.tenants, sets, drained, same]
    · by_cases same : u = t
      · subst same
        simp [World.tenants, sets, drained]
      · simp [World.tenants, sets, drained, same]
  sets key foreign := by
    rw [sets]
    split
    · exact Function.update_of_ne foreign ..
    · rfl
  strings := strings

/-- A visit to a tenant without tasks only takes it out of the set. -/
theorem visit_stale {w : World Kwargs} {slots dispatched : Nat} {t : String}
    {rest : List String} (at_ : w.dispatcher = .lpop slots dispatched t rest)
    (empty : w.queue t = []) :
    ∃ w', finish codec w = finish codec w' ∧
      w'.dispatcher = .nextTenant slots dispatched rest ∧ Swept codec w [t] w' := by
  refine ⟨{ w with
    redis := w.redis.srem tenantsSetKey t
    dispatcher := .nextTenant slots dispatched rest }, ?_, rfl, ?_⟩
  · rw [finish_working (by rw [at_]; rfl), finish_working]
    · simp [dispatchStep, at_, Redis.lpop_nil _ _ empty]
    · simp [dispatchStep, at_, Redis.lpop_nil _ _ empty, Dispatcher.working]
  · apply swept_one
    · simp [World.headTask, empty]
    · rw [empty, List.tail_nil, ← empty]
      exact (Function.update_eq_self ..).symm
    · simp [empty, World.tenants]
    · rfl

/-- A visit to a tenant with a task sends its head. -/
theorem visit_busy {w : World Kwargs} {slots dispatched : Nat} {t raw : String}
    {rest left : List String} {payload : Payload Kwargs}
    (at_ : w.dispatcher = .lpop slots dispatched t rest) (busy : w.queue t = raw :: left)
    (task : codec.loads raw = some payload) :
    ∃ w', finish codec w = finish codec w' ∧
      w'.dispatcher = .nextTenant slots (dispatched + 1) rest ∧ Swept codec w [t] w' := by
  let popped : Redis := { w.redis with lists := Function.update w.redis.lists (queueKey t) left }
  let sending : World Kwargs :=
    { w with redis := popped, dispatcher := .sendTask slots dispatched t payload rest }
  let sent : World Kwargs :=
    { w with
      redis := popped
      celery := w.celery ++ [payload]
      accepted := Function.update w.accepted t (w.accepted t ++ [payload])
      dispatcher := .llenTenant slots (dispatched + 1) t rest }
  have pops : dispatchStep codec w = sending := by
    simp [dispatchStep, at_, Redis.lpop_cons _ _ _ busy, task, sending, popped]
  have sends : dispatchStep codec sending = sent := rfl
  have runs : finish codec w = finish codec (dispatchStep codec sent) := by
    rw [finish_working (by rw [at_]; rfl), pops, finish_working rfl, sends, finish_working rfl]
  have lengthLeft : popped.llen (queueKey t) = left.length := by simp [Redis.llen, popped]
  have celery : sent.celery = w.celery ++ (w.headTask codec t).toList := by
    simp [sent, World.headTask, busy, task]
  have lists : popped.lists = Function.update w.redis.lists (queueKey t) (w.queue t).tail := by
    rw [busy, List.tail_cons]
  by_cases drained : left = []
  · have looks : dispatchStep codec sent =
        { sent with dispatcher := .sremDrained slots (dispatched + 1) t rest } := by
      simp [dispatchStep, sent, lengthLeft, drained]
    refine ⟨{ sent with
      redis := popped.srem tenantsSetKey t
      dispatcher := .nextTenant slots (dispatched + 1) rest }, ?_, rfl, ?_⟩
    · rw [runs, looks, finish_working rfl]
      rfl
    · apply swept_one
      · exact celery
      · exact lists
      · simp [busy, drained, popped, World.tenants]
      · rfl
  · have looks : dispatchStep codec sent =
        { sent with dispatcher := .nextTenant slots (dispatched + 1) rest } := by
      simp [dispatchStep, sent, lengthLeft, drained]
    refine ⟨{ sent with dispatcher := .nextTenant slots (dispatched + 1) rest }, ?_, rfl, ?_⟩
    · rw [runs, looks]
    · apply swept_one
      · exact celery
      · exact lists
      · simp [busy, drained, sent, popped]
      · rfl

/-- One turn of the loop: an empty queue uses no slot. -/
theorem visit {w : World Kwargs} {slots dispatched : Nat} {t : String} {rest : List String}
    (at_ : w.dispatcher = .lpop slots dispatched t rest)
    (task : w.queue t ≠ [] → (w.headTask codec t).isSome) :
    ∃ w', finish codec w = finish codec w' ∧
      w'.dispatcher =
        .nextTenant slots (dispatched + if w.queue t = [] then 0 else 1) rest ∧
      Swept codec w [t] w' := by
  cases found : w.queue t with
  | nil => simpa using visit_stale at_ found
  | cons raw left =>
      obtain ⟨payload, loaded⟩ := Option.isSome_iff_exists.mp (task (by simp [found]))
      simpa using visit_busy at_ found (by simpa [World.headTask, found] using loaded)

/-- The loop from its head on. -/
theorem sweep (ids : List String) (nodup : ids.Nodup) (w : World Kwargs) (slots dispatched : Nat)
    (at_ : w.dispatcher = .nextTenant (dispatched + slots) dispatched ids)
    (tasks : ∀ t ∈ visited w.queue slots ids, w.queue t ≠ [] → (w.headTask codec t).isSome) :
    ∃ w', finish codec w = finish codec w' ∧
      w'.dispatcher = .release (some
        (dispatched + ((visited w.queue slots ids).filter (w.queue · ≠ [])).length)) ∧
      Swept codec w (visited w.queue slots ids) w' := by
  induction ids generalizing w slots dispatched with
  | nil => exact ⟨w, rfl, by cases slots <;> simpa [visited, Dispatcher.nextTenant] using at_,
      by cases slots <;> exact .nil w⟩
  | cons t rest ih =>
      obtain ⟨apart, nodup⟩ := List.nodup_cons.mp nodup
      cases slots with
      | zero => exact ⟨w, rfl, by simpa [visited, Dispatcher.nextTenant] using at_, .nil w⟩
      | succ slots =>
          have popping : w.dispatcher = .lpop (dispatched + (slots + 1)) dispatched t rest := by
            simpa [Dispatcher.nextTenant] using at_
          obtain ⟨middle, runs, at_next, first⟩ := visit popping (tasks t List.mem_cons_self)
          -- a visit to `t` leaves the queues of the rest as they were
          have same {u : String} (mem : u ∈ rest) : middle.queue u = w.queue u :=
            first.queue_eq fun at_t => apart (List.mem_singleton.mp at_t ▸ mem)
          let left := if w.queue t = [] then slots + 1 else slots
          have onward := visited_congr left fun u mem => same (u := u) mem
          have budget : dispatched + (slots + 1) =
              dispatched + (if w.queue t = [] then 0 else 1) + left := by
            by_cases empty : w.queue t = []
            · simp [left, empty]
            · simp only [left, empty, if_false]
              omega
          obtain ⟨w', finishes, leaving, swept⟩ := ih nodup middle left _ (budget ▸ at_next)
            (fun u mem busy => by
              have here := visited_subset _ _ mem
              rw [onward] at mem
              rw [same here] at busy
              simp only [World.headTask, same here]
              exact tasks u (List.mem_cons_of_mem _ mem) busy)
          have counts : (visited middle.queue left rest).filter (middle.queue · ≠ []) =
              (visited w.queue left rest).filter (w.queue · ≠ []) := by
            rw [onward]
            exact List.filter_congr fun u mem => by simp only [same (visited_subset _ _ mem)]
          refine ⟨w', runs.trans finishes, ?_, ?_⟩
          · rw [leaving, counts]
            by_cases empty : w.queue t = []
            · simp [visited, left, empty]
            · simp [visited, left, empty, Nat.add_assoc, Nat.add_comm 1]
          · rw [onward] at swept
            exact first.cons swept fun mem => apart (visited_subset _ _ mem)

/-! ### The whole call -/

theorem served_eq (w : World Kwargs) (slots : Nat) :
    w.served slots = (visited w.queue slots (sorted w.tenants)).filter (w.queue · ≠ []) := by
  rw [World.served, World.busy, sorted_filter, visited_busy]

theorem length_served (w : World Kwargs) (slots : Nat) :
    (w.served slots).length = min slots w.busy.card := by
  rw [World.served, List.length_take, length_sorted]

theorem visited_iff (w : World Kwargs) (slots : Nat) (t : String) :
    w.Visited slots t ↔ t ∈ visited w.queue slots (sorted w.tenants) := by
  have before : {u ∈ w.busy | u < t} = {u ∈ w.tenants | w.queue u ≠ [] ∧ u < t} :=
    Finset.filter_filter ..
  rw [mem_visited _ (sorted_pairwise _), World.Visited, before, ← length_sorted, sorted_filter,
    mem_sorted]

theorem headTask_of_empty {w : World Kwargs} {t : String} (empty : w.queue t = []) :
    w.headTask codec t = none := by
  simp [World.headTask, empty]

theorem map_some_heads {w : World Kwargs} {ids : List String}
    (tasks : ∀ t ∈ ids, w.queue t ≠ [] → (w.headTask codec t).isSome) :
    (ids.filterMap (w.headTask codec)).map some =
      (ids.filter (w.queue · ≠ [])).map (w.headTask codec) := by
  induction ids with
  | nil => rfl
  | cons t rest ih =>
      have rest_eq := ih fun u mem => tasks u (List.mem_cons_of_mem _ mem)
      by_cases empty : w.queue t = []
      · rw [List.filter_cons_of_neg (by simp [empty]),
          List.filterMap_cons_none (headTask_of_empty empty), rest_eq]
      · obtain ⟨payload, head⟩ := Option.isSome_iff_exists.mp (tasks t List.mem_cons_self empty)
        rw [List.filter_cons_of_pos (by simp [empty]), List.filterMap_cons_some head,
          List.map_cons, List.map_cons, head, rest_eq]

/-- The loop over the members of the set, and the `DEL` after it. -/
theorem dispatched_of_swept {w swept after : World Kwargs} {slots : Nat}
    (tasks : ∀ t ∈ w.served slots, (w.headTask codec t).isSome)
    (effect : Swept codec w (visited w.queue slots (sorted w.tenants)) swept)
    (celery : after.celery = swept.celery)
    (redis : after.redis = swept.redis.del dispatchLockKey) : Dispatched codec w slots after := by
  have queue_eq (t : String) : after.queue t = swept.queue t := by simp [World.queue, redis]
  have of_served {t : String} (mem : t ∈ w.served slots) :
      t ∈ visited w.queue slots (sorted w.tenants) := by
    rw [served_eq] at mem
    exact (List.mem_filter.mp mem).1
  constructor
  case sent =>
    refine ⟨_, celery.trans effect.celery, ?_⟩
    rw [served_eq]
    refine map_some_heads fun t mem busy => tasks t ?_
    rw [served_eq]
    exact List.mem_filter.mpr ⟨mem, by simpa using busy⟩
  case popped =>
    intro t mem
    rw [queue_eq, effect.queues t (of_served mem)]
  case lists =>
    intro key foreign
    rw [redis, Redis.del_lists]
    by_cases visit : ∃ t ∈ visited w.queue slots (sorted w.tenants), key = queueKey t
    · obtain ⟨t, mem, rfl⟩ := visit
      -- visited but not served: the queue was empty
      have empty : w.queue t = [] := by
        by_contra busy
        refine foreign t ?_ rfl
        rw [served_eq]
        exact List.mem_filter.mpr ⟨mem, by simpa using busy⟩
      have kept := effect.queues t mem
      rw [empty, List.tail_nil] at kept
      exact kept.trans empty.symm
    · exact effect.lists key fun t mem same => visit ⟨t, mem, same⟩
  case tenants =>
    intro t
    have members : after.tenants = swept.tenants := by simp [World.tenants, redis]
    rw [members, effect.tenants, visited_iff]
    by_cases mem : t ∈ visited w.queue slots (sorted w.tenants)
    · rw [queue_eq, effect.queues t mem]
    · simp [mem]
  case sets =>
    intro key foreign
    rw [redis, Redis.del_sets, effect.sets key foreign]
  case strings => rw [redis, ← effect.strings]; rfl

/-- The world once the `SET` has gone through. -/
def World.acquired (w : World Kwargs) : World Kwargs :=
  { w with
    redis := { w.redis with
      strings := Function.update w.redis.strings dispatchLockKey (some "1") }
    dispatcher := .llenCelery }

theorem dispatchFairBatch_held {w : World Kwargs} {value : String} (alone : w.dispatcher = .idle)
    (held : w.redis.strings dispatchLockKey = some value) :
    dispatchFairBatch codec w = (some 0, w) := by
  have refused : dispatchStep codec w = w := by simp [dispatchStep, alone, Redis.setNx, held]
  simp [dispatchFairBatch, refused, alone]

theorem dispatchFairBatch_free {w : World Kwargs} (alone : w.dispatcher = .idle)
    (free : w.redis.strings dispatchLockKey = none) :
    dispatchFairBatch codec w = finish codec w.acquired := by
  have sets : dispatchStep codec w = w.acquired := by
    simp [dispatchStep, alone, Redis.setNx, free, World.acquired]
  rw [dispatchFairBatch, sets]
  rfl

/-- The slots of a call: what the Celery queue lacks of its depth. -/
def World.slots (w : World Kwargs) : Nat := maxCeleryQueueDepth - w.celery.length

/-- From the `LLEN` to the `finally` clause. -/
theorem finish_acquired (w : World Kwargs)
    (tasks : ∀ t ∈ w.served w.slots, (w.headTask codec t).isSome) :
    ∃ w', finish codec w.acquired = finish codec w' ∧
      w'.dispatcher = .release (some (w.served w.slots).length) ∧
      Swept codec w.acquired (visited w.queue w.slots (sorted w.tenants)) w' := by
  have looks : finish codec w.acquired = finish codec (dispatchStep codec w.acquired) :=
    finish_working rfl
  rcases Nat.eq_zero_or_pos w.slots with full | room
  · let leaving : World Kwargs := { w.acquired with dispatcher := .release (some 0) }
    have leaves : dispatchStep codec w.acquired = leaving := if_pos full
    refine ⟨leaving, looks.trans (by rw [leaves]), by simp [leaving, full, World.served], ?_⟩
    have nothing : visited w.queue w.slots (sorted w.tenants) = [] := by rw [full, visited]
    rw [nothing]
    exact { Swept.nil leaving with }
  · let asking : World Kwargs := { w.acquired with dispatcher := .smembers w.slots }
    let looping : World Kwargs :=
      { w.acquired with dispatcher := .nextTenant w.slots 0 (sorted w.tenants) }
    have asks : dispatchStep codec w.acquired = asking := if_neg room.ne'
    have loops : dispatchStep codec asking = looping := rfl
    have nodup : (sorted w.tenants).Nodup := (sorted_pairwise w.tenants).imp fun less => less.ne
    obtain ⟨w', runs, leaving, swept⟩ := @sweep Kwargs codec (sorted w.tenants) nodup looping
      w.slots 0 (by rw [Nat.zero_add]) (fun t mem busy => tasks t (by
        rw [served_eq]
        exact List.mem_filter.mpr ⟨mem, decide_eq_true busy⟩))
    refine ⟨w', ?_, ?_, { swept with }⟩
    · rw [looks, asks, finish_working rfl, loops, runs]
    · rw [leaving, Nat.zero_add, served_eq]
      rfl

/-- One call, alone: it leaves a held lock's owner in peace; otherwise it deletes the lock
on every exit, and when the heads it comes to are tasks it sends the heads of the first
busy tenants, one for each free slot of the Celery queue. -/
theorem one_dispatch (w : World Kwargs) (alone : w.dispatcher = .idle) :
    (∀ value, w.redis.strings dispatchLockKey = some value →
      dispatchFairBatch codec w = (some 0, w)) ∧
    (w.redis.strings dispatchLockKey = none →
      (dispatchFairBatch codec w).2.redis.strings dispatchLockKey = none ∧
      ((∀ t ∈ w.served w.slots, (w.headTask codec t).isSome) →
        (dispatchFairBatch codec w).1 = some (min w.slots w.busy.card) ∧
        Dispatched codec w w.slots (dispatchFairBatch codec w).2)) := by
  refine ⟨fun value held => dispatchFairBatch_held alone held, fun free => ?_⟩
  rw [dispatchFairBatch_free alone free]
  refine ⟨lock_finish (.inl rfl), fun tasks => ?_⟩
  obtain ⟨w', runs, leaving, swept⟩ := finish_acquired w tasks
  have effect : Dispatched codec w.acquired w.slots (dispatchStep codec w') :=
    dispatched_of_swept tasks swept (by simp [dispatchStep, leaving])
      (by simp [dispatchStep, leaving])
  rw [runs, finish_release leaving, length_served]
  refine ⟨rfl, { effect with strings := ?_ }⟩
  exact effect.strings.trans (Function.update_idem ..)

/-- Tenants b and c wait; a is a stale member of the set. -/
def waiting : World Unit :=
  { World.empty with
    redis := (enqueueTask bareCodec (enqueueTask bareCodec
      (enqueueTask bareCodec Redis.empty "b" "ingest" ()) "b" "ingest" ())
      "c" "ingest" ()).sadd tenantsSetKey "a" }

theorem stale_member_passed_over :
    (dispatchFairBatch bareCodec waiting).1 = some 2 ∧
    Dispatched bareCodec waiting 2 (dispatchFairBatch bareCodec waiting).2 := by
  obtain ⟨-, free⟩ := @one_dispatch Unit bareCodec waiting rfl
  have busy : waiting.busy.card = 2 := by decide
  have tasks : ∀ t ∈ waiting.served waiting.slots, (waiting.headTask bareCodec t).isSome := by
    intro t mem
    have nonempty : waiting.queue t ≠ [] := by
      rw [served_eq] at mem
      simpa using (List.mem_filter.mp mem).2
    obtain ⟨raw, left, queue⟩ := List.exists_cons_of_ne_nil nonempty
    simp [World.headTask, queue, bareCodec]
  obtain ⟨returned, effect⟩ := (free rfl).2 tasks
  rw [busy] at returned
  exact ⟨returned, effect⟩

end TenantLibrary.FairQueue
