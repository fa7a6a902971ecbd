import Mathlib.Algebra.Order.BigOperators.Group.List
import Mathlib.Algebra.Order.Ring.Nat
import Mathlib.Data.Finset.Card
import TenantLibrary.Api.Journal

/-!
What refreshes ask for.

`_refresh_all_catalogs_async` repeats the query of each completed log, and what it enqueues
makes completed logs in turn. `refreshes_never_breed` says that this does not grow: everything
stems from the queries of requests, and a refresh adds at most one task for each of them.
-/

namespace TenantLibrary.Api

open TenantLibrary.Lib TenantLibrary.OpenLibrary TenantLibrary.Store TenantLibrary.Ingestion
  TenantLibrary.JobQueue

variable {str : SessionError DbError Failure → String} {s t : Upkeep} {event : Event}
  {events : List Event}

/-! ### What is requested -/

/-- The query a request asks for. -/
def Event.query : Event → Option IngestionQuery
  | .trigger tenantId body _ => some ⟨tenantId, body.queryType, body.queryValue⟩
  | _ => none

/-- The queries that requests have asked for. -/
def requested (events : List Event) : List IngestionQuery := events.filterMap Event.query

def Event.isRefresh : Event → Bool
  | .refresh _ => true
  | _ => false

/-- The tasks that are enqueued, or will be by what is under way. -/
def Upkeep.tasks (s : Upkeep) : Nat :=
  s.enqueued.length + s.unsent.length + (s.refreshes.map fun r => r.rest.length).sum

/-- Everything stems from the requested queries, and the tasks are no more than the requests and
one for each query and refresh. -/
structure Bred (queries : List IngestionQuery) (begun : Nat) (s : Upkeep) : Prop where
  logs : ∀ log ∈ s.db.logs.rows, logQuery log ∈ queries
  enqueued : ∀ args ∈ s.enqueued, taskQuery args ∈ queries
  unsent : ∀ args ∈ s.unsent, taskQuery args ∈ queries
  refreshes : ∀ r ∈ s.refreshes, ∀ query ∈ r.rest, query ∈ queries
  working : ∀ k, ∀ args ∈ (s.workers k).task, taskQuery args ∈ queries
  bounded : s.tasks ≤ queries.length + begun * queries.toFinset.card

section Bred

variable {queries : List IngestionQuery} {begun : Nat}

theorem completedQueries_subset {db : Database}
    (logs : ∀ log ∈ db.logs.rows, logQuery log ∈ queries) : completedQueries db ⊆ queries := by
  intro query mem
  obtain ⟨log, logMem, rfl⟩ := List.mem_map.mp (List.mem_dedup.mp mem)
  exact logs log (List.mem_filter.mp logMem).1

/-- A refresh has at most one task for each requested query. -/
theorem length_completedQueries_le {db : Database}
    (logs : ∀ log ∈ db.logs.rows, logQuery log ∈ queries) :
    (completedQueries db).length ≤ queries.toFinset.card := by
  have once : (completedQueries db).Nodup := List.nodup_dedup _
  rw [← List.toFinset_card_of_nodup once]
  refine Finset.card_le_card fun query mem => ?_
  exact List.mem_toFinset.mpr (completedQueries_subset logs (List.mem_toFinset.mp mem))

/-- One more request leaves room for its task. -/
theorem Bred.room (bred : Bred queries begun s) (query : IngestionQuery) :
    s.tasks + 1 ≤ (queries ++ [query]).length + begun * (queries ++ [query]).toFinset.card := by
  have fewer : queries.toFinset.card ≤ (queries ++ [query]).toFinset.card :=
    Finset.card_le_card fun query mem =>
      List.mem_toFinset.mpr (List.mem_append_left _ (List.mem_toFinset.mp mem))
  calc s.tasks + 1 ≤ queries.length + begun * queries.toFinset.card + 1 :=
        Nat.succ_le_succ bred.bounded
    _ = (queries ++ [query]).length + begun * queries.toFinset.card := by
        rw [List.length_append, List.length_singleton, Nat.add_right_comm]
    _ ≤ (queries ++ [query]).length + begun * (queries ++ [query]).toFinset.card :=
        Nat.add_le_add_left (Nat.mul_le_mul_left begun fewer) _

theorem Bred.request (bred : Bred queries begun s) (query : IngestionQuery) :
    Bred (queries ++ [query]) begun s where
  logs log mem := List.mem_append_left _ (bred.logs log mem)
  enqueued args mem := List.mem_append_left _ (bred.enqueued args mem)
  unsent args mem := List.mem_append_left _ (bred.unsent args mem)
  refreshes r mem query rest := List.mem_append_left _ (bred.refreshes r mem query rest)
  working k args mem := List.mem_append_left _ (bred.working k args mem)
  bounded := (Nat.le_succ _).trans (bred.room query)

/-- A step that adds no task but takes the ones under way further. -/
theorem Bred.of_le (bred : Bred queries begun s)
    (logs : ∀ log ∈ t.db.logs.rows, logQuery log ∈ queries)
    (enqueued : ∀ args ∈ t.enqueued, taskQuery args ∈ queries)
    (unsent : ∀ args ∈ t.unsent, taskQuery args ∈ queries)
    (refreshes : ∀ r ∈ t.refreshes, ∀ query ∈ r.rest, query ∈ queries)
    (working : ∀ k, ∀ args ∈ (t.workers k).task, taskQuery args ∈ queries)
    (fewer : t.tasks ≤ s.tasks) : Bred queries begun t :=
  ⟨logs, enqueued, unsent, refreshes, working, fewer.trans bred.bounded⟩

theorem Bred.setWorker (bred : Bred queries begun s) (k : Nat) (stage : TaskStage)
    (asked : ∀ args ∈ stage.task, taskQuery args ∈ queries) :
    Bred queries begun (s.setWorker k stage) := by
  refine bred.of_le bred.logs bred.enqueued bred.unsent bred.refreshes (fun j args mem => ?_) le_rfl
  rcases eq_or_ne j k with rfl | other
  · rw [Upkeep.workers_setWorker] at mem
    exact asked args mem
  · rw [Upkeep.workers_setWorker_of_ne s stage other] at mem
    exact bred.working j args mem

theorem Bred.rest (bred : Bred queries begun s) (k : Nat) :
    Bred queries begun (s.setWorker k .idle) :=
  bred.setWorker k .idle fun args is => absurd is (Option.not_mem_none args)

theorem Bred.setDb (bred : Bred queries begun s) {db : Database}
    (logs : ∀ log ∈ db.logs.rows, logQuery log ∈ queries) : Bred queries begun { s with db } :=
  bred.of_le logs bred.enqueued bred.unsent bred.refreshes bred.working le_rfl

theorem Bred.subRefreshes (bred : Bred queries begun s) {others : List Refresh}
    (sub : others.Sublist s.refreshes) : Bred queries begun { s with refreshes := others } := by
  refine bred.of_le bred.logs bred.enqueued bred.unsent
    (fun r mem => bred.refreshes r (sub.subset mem)) bred.working ?_
  exact Nat.add_le_add_left ((sub.map _).sum_le_sum fun _ _ => Nat.zero_le _) _

/-- A step that is neither a request nor the beginning of a refresh. -/
theorem bred_of_other (move : Moves s event t) (bred : Bred queries begun s)
    (noRequest : event.query = none) (noRefresh : event.isRefresh = false) :
    Bred queries begun t := by
  cases move with
  | triggered => cases noRequest
  | refused => cases noRequest
  | began => cases noRefresh
  | sent i args others one =>
      have known (other : TaskArgs) (mem : other ∈ args :: others) : taskQuery other ∈ queries :=
        bred.unsent other (one.mem_iff.mpr mem)
      refine bred.of_le bred.logs (fun other mem => ?_)
        (fun other mem => known other (List.mem_cons_of_mem _ mem)) bred.refreshes bred.working ?_
      · rcases List.mem_append.mp mem with old | new
        · exact bred.enqueued other old
        · rw [List.mem_singleton.mp new]
          exact known args List.mem_cons_self
      · have length := one.length_eq
        rw [List.length_cons] at length
        simp only [Upkeep.tasks, List.length_append, List.length_singleton]
        omega
  | dropped i others sub =>
      refine bred.of_le bred.logs bred.enqueued (fun args mem => bred.unsent args (sub.subset mem))
        bred.refreshes bred.working ?_
      exact Nat.add_le_add_right (Nat.add_le_add_left sub.length_le _) _
  | submitted lists items => exact bred.setDb bred.logs
  | queued i newId query rest inserted others one =>
      have known (r : Refresh) (mem : r ∈ (⟨query :: rest, inserted⟩ :: others : List Refresh)) :
          ∀ query ∈ r.rest, query ∈ queries := bred.refreshes r (one.mem_iff.mpr mem)
      have first := known _ List.mem_cons_self
      refine bred.of_le bred.logs (fun args mem => ?_) bred.unsent (fun r mem => ?_) bred.working ?_
      · rcases List.mem_append.mp mem with old | new
        · exact bred.enqueued args old
        · rw [List.mem_singleton.mp new]
          exact first query List.mem_cons_self
      · rcases List.mem_cons.mp mem with rfl | other
        · exact fun other left => first other (List.mem_cons_of_mem _ left)
        · exact known r (List.mem_cons_of_mem _ other)
      · have sums := (one.map fun r => r.rest.length).sum_eq
        rw [List.map_cons, List.sum_cons, List.length_cons] at sums
        simp only [Upkeep.tasks, List.length_append, List.length_singleton, List.map_cons,
          List.sum_cons]
        omega
  | refreshed i newId inserted others one db committed =>
      obtain ⟨table, rfl, _⟩ := insertJobs_eq_ok committed
      have sums := (one.map fun r => r.rest.length).sum_eq
      rw [List.map_cons, List.sum_cons] at sums
      refine bred.of_le bred.logs bred.enqueued bred.unsent
        (fun r mem => bred.refreshes r (one.mem_iff.mpr (List.mem_cons_of_mem _ mem))) bred.working ?_
      simp only [Upkeep.tasks]
      omega
  | raised i newId others sub => exact bred.subRefreshes sub
  | abandoned i others sub => exact bred.subRefreshes sub
  | received k position attempt args mem =>
      refine bred.setWorker k _ fun other is => ?_
      obtain rfl := Option.some.inj is
      exact bred.enqueued args mem
  | marked k args attempt stage job row =>
      have asked := bred.working k args (by rw [stage]; rfl)
      refine (bred.setDb ?_).setWorker k _ fun other is => ?_
      · rw [(journal_markedRunning args attempt s.db).1]
        exact bred.logs
      · obtain rfl := Option.some.inj is
        exact asked
  | logged k args attempt stage log db made =>
      have asked := bred.working k args (by rw [stage]; rfl)
      refine (bred.setDb fun other mem => ?_).setWorker k _ fun other is => ?_
      · rcases List.mem_append.mp (made.logs ▸ mem) with old | new
        · exact bred.logs other old
        · obtain ⟨tenant, queryType, queryValue⟩ := made.query
          rw [List.mem_singleton.mp new, logQuery, tenant, queryType, queryValue]
          exact asked
      · obtain rfl := Option.some.inj is
        exact asked
  | ended k args log stage job row =>
      have kept := @Bred.setDb s queries begun bred (setJob (outcome job log) s.db) bred.logs
      exact kept.rest k
  | gaveUp k => exact bred.rest k
  | died k => exact bred.rest k

/-- One step keeps to what is requested. -/
theorem bred_of_move (move : Moves s event t) (bred : Bred queries begun s) :
    Bred (queries ++ event.query.toList) (begun + event.isRefresh.toNat) t := by
  cases event with
  | trigger tenantId body jobId =>
      have more := bred.request ⟨tenantId, body.queryType, body.queryValue⟩
      cases move with
      | refused => exact more
      | triggered _ _ _ jobs inserted =>
          refine ⟨more.logs, more.enqueued, fun args mem => ?_, more.refreshes, more.working, ?_⟩
          · rcases List.mem_append.mp mem with old | new
            · exact more.unsent args old
            · rw [List.mem_singleton.mp new]
              exact List.mem_append_right _ (List.mem_singleton_self _)
          · refine (Nat.le_of_eq ?_).trans (bred.room ⟨tenantId, body.queryType, body.queryValue⟩)
            simp only [Upkeep.tasks, List.length_append, List.length_singleton]
            omega
  | refresh asked =>
      cases move with
      | began _ perm =>
          have few := perm.length_eq.trans_le (length_completedQueries_le bred.logs)
          change Bred (queries ++ []) (begun + 1) _
          rw [List.append_nil]
          refine ⟨bred.logs, bred.enqueued, bred.unsent, fun r mem => ?_, bred.working, ?_⟩
          · rcases List.mem_cons.mp mem with rfl | old
            · exact fun query rest => completedQueries_subset bred.logs (perm.subset rest)
            · exact bred.refreshes r old
          · have bounded := bred.bounded
            simp only [Upkeep.tasks, List.map_cons, List.sum_cons] at bounded ⊢
            rw [Nat.add_mul, Nat.one_mul]
            omega
  | _ =>
      change Bred (queries ++ []) begun t
      rw [List.append_nil]
      exact bred_of_other move bred rfl rfl

end Bred

/-- In every history the tasks and the logs ask for nothing but what some request has asked for,
and there are no more tasks than requests and, for each refresh, requested queries: a refresh
never breeds refreshes. -/
theorem refreshes_never_breed (run : Run (Steps (upkeep str)) .empty events s) :
    (∀ args ∈ s.enqueued, taskQuery args ∈ requested events) ∧
      (∀ log ∈ s.db.logs.rows, logQuery log ∈ requested events) ∧
      s.enqueued.length ≤ (requested events).length +
        events.countP Event.isRefresh * (requested events).toFinset.card := by
  have preserved (past : List Event) (s : Upkeep) (event : Event) (t : Upkeep)
      (bred : Bred (requested past) (past.countP Event.isRefresh) s)
      (step : upkeep str s event = some t) :
      Bred (requested (past ++ [event])) ((past ++ [event]).countP Event.isRefresh) t := by
    have next := bred_of_move (moves_of_step step) bred
    have asked : requested (past ++ [event]) = requested past ++ event.query.toList := by
      rw [requested, List.filterMap_append]
      rfl
    have begun : (past ++ [event]).countP Event.isRefresh =
        past.countP Event.isRefresh + event.isRefresh.toNat := by
      rw [List.countP_append]
      cases isRefresh : event.isRefresh <;> simp [isRefresh]
    rw [asked, begun]
    exact next
  have bred := run.invariant_trace (fun past s => Bred (requested past) (past.countP Event.isRefresh) s)
    preserved ⟨nofun, nofun, nofun, nofun, nofun, Nat.zero_le _⟩
  refine ⟨bred.enqueued, bred.logs, le_trans ?_ bred.bounded⟩
  rw [Upkeep.tasks, Nat.add_assoc]
  exact Nat.le_add_right _ _

/-- One request and one refresh, with the query of the request: two tasks, and no more. -/
theorem interrupted_breeds_one : ∃ s, exec (upkeep fun _ => "") .empty interrupted = some s ∧
    s.enqueued.length = 2 ∧ requested interrupted = [⟨1, .author, "ann"⟩] ∧
    (∀ args ∈ s.enqueued, taskQuery args ∈ requested interrupted) ∧
    (∀ log ∈ s.db.logs.rows, logQuery log ∈ requested interrupted) ∧
    s.enqueued.length ≤ (requested interrupted).length +
      interrupted.countP Event.isRefresh * (requested interrupted).toFinset.card := by
  have shown : (exec (upkeep fun _ => "") .empty interrupted).map (fun s => s.enqueued.length) =
      some 2 := by decide +kernel
  obtain ⟨s, computed, tasks⟩ := Option.map_eq_some_iff.mp shown
  exact ⟨s, computed, tasks, rfl, refreshes_never_breed (run_of_exec computed)⟩

end TenantLibrary.Api
