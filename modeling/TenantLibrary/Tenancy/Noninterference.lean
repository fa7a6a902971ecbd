import TenantLibrary.Lib.Unwinding
import TenantLibrary.Tenancy.Endpoints
import TenantLibrary.Tenancy.Renaming

/-!
Tenants do not interfere.

A service is isolated when its database is partitioned and every task is about a job of
its tenant. Each operation keeps it so, does on its tenant's part of the service what it
does on the whole, and leaves the parts of the other tenants alone. What a tenant is
answered over a whole run depends therefore on its own operations only.
-/

namespace TenantLibrary.Tenancy

open TenantLibrary.Lib TenantLibrary.Lib.Share TenantLibrary.OpenLibrary TenantLibrary.Store
  TenantLibrary.Ingestion TenantLibrary.ReadingLists TenantLibrary.Books TenantLibrary.Api

variable {owner : Uuid → Uuid} {env : Environment} {s : Service} {op : Operation}

/-! ### One operation -/

/-- A tenant's part of the service. -/
def part (owner : Uuid → Uuid) (tenantId : Uuid) (s : Service) : Service where
  db := restrict owner tenantId s.db
  enqueued other := if other = tenantId then s.enqueued other else []

structure Isolated (owner : Uuid → Uuid) (s : Service) : Prop where
  db : Partitioned owner s.db
  tasks : ∀ tenantId, ∀ args ∈ s.enqueued tenantId, OwnsTask owner tenantId args

theorem part_enqueue {tenantId : Uuid} {task : Option TaskArgs}
    (own : ∀ args, task = some args → args.tenantId = tenantId) :
    part owner tenantId (s.enqueue task) = (part owner tenantId s).enqueue task := by
  cases task with
  | none => rfl
  | some args =>
      obtain rfl := own args rfl
      apply Service.ext
      · simp [part]
      · intro other
        by_cases same : other = args.tenantId
        · subst same
          simp [part, Service.enqueued_enqueue]
        · simp [part, Service.enqueued_enqueue_of_ne _ same, same]

theorem part_enqueue_of_ne {tenantId other : Uuid} {task : Option TaskArgs}
    (own : ∀ args, task = some args → args.tenantId = tenantId) (different : other ≠ tenantId) :
    part owner other (s.enqueue task) = part owner other s := by
  cases task with
  | none => rfl
  | some args =>
      obtain rfl := own args rfl
      apply Service.ext
      · simp [part]
      · intro one
        by_cases same : one = other
        · subst same
          simp [part, Service.enqueued_enqueue_of_ne _ different]
        · simp [part, same]

/-- What an operation enqueues is a task of its tenant. -/
theorem ownsTask_of_enqueues {response : Response} {args : TaskArgs}
    (drawn : DrawnForTenant owner op)
    (enqueued : enqueues op.tenantId op.request response = some args) :
    OwnsTask owner op.tenantId args := by
  obtain ⟨tenantId, request⟩ := op
  dsimp only at enqueued
  unfold enqueues at enqueued
  split at enqueued
  case h_1 body jobId response =>
    obtain rfl := Option.some.inj enqueued
    exact ⟨rfl, drawn⟩
  case h_2 => cases enqueued

theorem Isolated.enqueue {tenantId : Uuid} {task : Option TaskArgs} (isolated : Isolated owner s)
    (own : ∀ args, task = some args → OwnsTask owner tenantId args) :
    Isolated owner (s.enqueue task) := by
  cases task with
  | none => exact isolated
  | some added =>
      obtain ⟨rfl, ownJob⟩ := own added rfl
      constructor
      · rw [Service.db_enqueue]
        exact isolated.db
      · intro tenantId args mem
        by_cases same : tenantId = added.tenantId
        · subst same
          rw [Service.enqueued_enqueue] at mem
          rcases List.mem_append.mp mem with old | new
          · exact isolated.tasks _ args old
          · obtain rfl := List.mem_singleton.mp new
            exact ⟨rfl, ownJob⟩
        · rw [Service.enqueued_enqueue_of_ne _ same] at mem
          exact isolated.tasks tenantId args mem

/-- The tenants' parts of the service are separate. -/
theorem separates (owner : Uuid → Uuid) (env : Environment) :
    Separates (serve env) Operation.tenantId (part owner) (Isolated owner)
      (DrawnForTenant owner) := by
  have served : ∀ s op, Isolated owner s → DrawnForTenant owner op → _ :=
    fun s op isolated drawn =>
      (@local_handle owner s.db env op _ drawn (isolated.tasks op.tenantId)).run
        ⟨isolated.db, fun _ _ => rfl⟩
  have ownTask : ∀ (op : Operation) (response : Response), DrawnForTenant owner op → ∀ args,
      enqueues op.tenantId op.request response = some args → args.tenantId = op.tenantId :=
    fun op response drawn args enqueued => (ownsTask_of_enqueues drawn enqueued).1
  constructor
  · intro s op isolated drawn
    obtain ⟨⟨sound, _⟩, _, _⟩ := served s op isolated drawn
    apply Isolated.enqueue
    · exact ⟨sound, isolated.tasks⟩
    · intro args enqueued
      exact ownsTask_of_enqueues drawn enqueued
  · intro s op isolated drawn
    obtain ⟨_, sameResult, sameDb⟩ := served s op isolated drawn
    have sameTasks : (part owner op.tenantId s).enqueued op.tenantId = s.enqueued op.tenantId :=
      if_pos rfl
    unfold serve
    rw [sameTasks]
    dsimp only
    rw [part_enqueue (ownTask op _ drawn)]
    have sameResponse := congrArg respond sameResult
    apply Prod.ext
    · exact sameResponse
    · apply congrArg₂ Service.enqueue
      · exact Service.ext sameDb fun _ => rfl
      · exact congrArg (enqueues op.tenantId op.request) sameResponse
  · intro s op isolated drawn other different
    obtain ⟨⟨_, others⟩, _, _⟩ := served s op isolated drawn
    unfold serve
    dsimp only
    rw [part_enqueue_of_ne (ownTask op _ drawn) different]
    apply Service.ext
    · exact others other different
    · intro tenantId
      rfl

theorem isolated_empty (owner : Uuid → Uuid) : Isolated owner Service.empty := by
  constructor
  · constructor
    · constructor
      · intro b mem
        cases mem
      · intro a mem
        cases mem
      · intro l mem
        cases mem
      · intro s mem
        cases mem
    · intro j mem
      cases mem
    · intro l mem
      cases mem
    · intro l mem
      cases mem
    · intro i mem
      cases mem
  · intro tenantId args mem
    cases mem

/-! ### Whole runs -/

/-- Every link joins a book and an author of one tenant, and every item that points to a
book points to a book of its list's tenant. -/
structure JoinsWithinTenants (db : Database) : Prop where
  links : ∀ l ∈ db.catalog.bookAuthors.rows, ∃ b ∈ db.catalog.books.rows,
    ∃ a ∈ db.catalog.authors.rows, b.id = l.bookId ∧ a.id = l.authorId ∧ b.tenantId = a.tenantId
  items : ∀ i ∈ db.readingListItems.rows, ∀ bookId, i.bookId = some bookId →
    ∃ l ∈ db.readingLists.rows, ∃ b ∈ db.catalog.books.rows,
      l.id = i.readingListId ∧ b.id = bookId ∧ l.tenantId = b.tenantId

theorem Partitioned.joinsWithinTenants {db : Database} (sound : Partitioned owner db) :
    JoinsWithinTenants db := by
  constructor
  · intro l mem
    obtain ⟨same, ⟨b, book, bookId⟩, a, author, authorId⟩ := sound.catalog.links l mem
    refine ⟨b, book, a, author, bookId, authorId, ?_⟩
    rw [← sound.catalog.books b book, ← sound.catalog.authors a author, bookId, authorId, same]
  · intro i mem bookId points
    obtain ⟨partitioned, refers⟩ := sound.items i mem
    obtain ⟨⟨l, list, listId⟩, toBook⟩ := refersTo_iff.mp refers
    obtain ⟨b, book, same⟩ := toBook bookId points
    refine ⟨l, list, b, book, listId, same, ?_⟩
    rw [← sound.lists l list, ← sound.catalog.books b book, listId, same,
      partitioned.2 bookId points]

/-- The responses to the operations of a tenant in a run. -/
def responsesTo (env : Environment) (tenantId : Uuid) (start : Service) (ops : List Operation) :
    List Response :=
  answers (serve env) (fun op => op.tenantId = tenantId) start ops

theorem part_congr {owner' : Uuid → Uuid} (isolated : Isolated owner s)
    (isolated' : Isolated owner' s) (tenantId : Uuid) :
    part owner tenantId s = part owner' tenantId s := by
  unfold part
  rw [restrict_congr isolated.db isolated'.db]

/-- Nothing is renamed at the start of a service without rows. -/
theorem fixes_empty (owner : Uuid → Uuid) (tenantId : Uuid) (ρ : Equiv.Perm Uuid) :
    renameService ρ (part owner tenantId .empty) = part owner tenantId .empty := by
  apply Service.ext
  · rfl
  · intro other
    simp [renameService, part, Service.empty]

/-- A run under other names draws no identifier for two tenants either. -/
theorem DrawnForTenant.rename (drawn : DrawnForTenant owner op) (ρ : Equiv.Perm Uuid) :
    DrawnForTenant (owner ∘ ρ.symm) (renameOperation ρ op) := by
  have back : ∀ id, (owner ∘ ρ.symm) (ρ id) = owner id := fun id =>
    congrArg owner (ρ.symm_apply_apply id)
  obtain ⟨tenantId, request⟩ := op
  cases request with
  | triggerIngestion body jobId => exact (back jobId).trans drawn
  | submitReadingList submission draws answers =>
      constructor
      · exact (back _).trans drawn.list
      · intro i
        exact (back _).trans (drawn.item i)
  | ingestWorks position attempt =>
      constructor
      · exact (back _).trans drawn.log
      · intro queryType works found work mem
        have renamed := (renameSearch_run ρ attempt.search queryType).symm.trans found
        cases ran : attempt.search.run queryType with
        | error failure =>
            rw [ran] at renamed
            cases renamed
        | ok originals =>
            rw [ran] at renamed
            obtain rfl := Except.ok.inj renamed
            obtain ⟨original, originalMem, rfl⟩ := List.mem_map.mp mem
            have drawnWork := drawn.works queryType originals ran original originalMem
            constructor
            · exact (back _).trans drawnWork.book
            · intro i
              exact (back _).trans (drawnWork.author i)
  | _ => trivial

/-- Two runs from the same service which agree on a tenant's operations, up to the
identifiers that are drawn for it, give the tenant the same responses up to these
identifiers: `ρ` says which identifier of the second run stands for which of the first, and
leaves the rows the tenant has at the start as they are. In both runs no identifier is drawn
for two tenants; `owner` and `owner'` say for whom. Every state reached joins rows within
tenants only. -/
theorem noninterference (env : Environment) {owner owner' : Uuid → Uuid} {start : Service}
    (isolated : Isolated owner start) (isolated' : Isolated owner' start)
    {ops ops' : List Operation} (drawn : ∀ op ∈ ops, DrawnForTenant owner op)
    (drawn' : ∀ op ∈ ops', DrawnForTenant owner' op) (tenantId : Uuid) (ρ : Equiv.Perm Uuid)
    (fixes : renameService ρ (part owner tenantId start) = part owner tenantId start)
    (same : ops'.filter (fun op => op.tenantId = tenantId) =
      (ops.filter fun op => op.tenantId = tenantId).map (renameOperation ρ)) :
    responsesTo env tenantId start ops' =
        (responsesTo env tenantId start ops).map (renameResponse ρ) ∧
      JoinsWithinTenants (final (serve env) start ops).db := by
  constructor
  · have purged := (separates owner env).answers_purge tenantId isolated drawn
    have purged' := (separates owner' env).answers_purge tenantId isolated' drawn'
    rw [← part_congr isolated isolated', same, ← fixes] at purged'
    unfold responsesTo
    rw [purged, purged']
    exact answers_map (serve_rename ρ env) (fun _ => rfl) _ _
  · exact ((separates owner env).sound_final isolated drawn).db.joinsWithinTenants

/-! ### Two tenants that ingest the same work -/

/-- Tenant 1 draws odd identifiers, tenant 2 even ones. -/
def parityOwner (id : Nat) : Nat := if id % 2 = 0 then 2 else 1

def plainEnvironment : Environment := ⟨fun _ => "", ⟨id, id⟩, ⟨id, fun a b => a ≤ b⟩⟩

/-- A work whose identifiers are drawn from `2 * k + tenantId` on. -/
def workFor (tenantId k : Nat) : WorkInput :=
  { plainWork "OL1W" (some "One") 0 with
    draws := ⟨2 * k + tenantId, fun i => 2 * (k + i + 1) + tenantId, fun _ => ""⟩ }

/-- A tenant triggers an ingestion, the worker runs it, and the tenant lists its books. -/
def visit (tenantId : Nat) : List Operation :=
  [⟨tenantId, .triggerIngestion
      ⟨.author, "ann", 50, by decide +kernel, by decide⟩ (10 + tenantId)⟩,
    ⟨tenantId, .ingestWorks 0 ⟨id, searchFinding [workFor tenantId 10], "task", 12 + tenantId⟩⟩,
    ⟨tenantId, .listBooks ⟨some "ann", none, none, none, none⟩ .first⟩]

theorem drawn_visit {tenantId : Nat} (one : tenantId = 1 ∨ tenantId = 2) :
    ∀ op ∈ visit tenantId, DrawnForTenant parityOwner op := by
  have drawn : ∀ k : Nat, parityOwner (2 * k + tenantId) = tenantId := by
    intro k
    unfold parityOwner
    split
    · omega
    · omega
  intro op mem
  simp only [visit, List.mem_cons, List.not_mem_nil, or_false] at mem
  rcases mem with rfl | rfl | rfl
  · exact drawn 5
  · constructor
    · exact drawn 6
    · intro queryType works found work mem
      have same : works = [workFor tenantId 10] := by
        cases queryType <;> exact (Except.ok.inj found).symm
      subst same
      obtain rfl := List.mem_singleton.mp mem
      exact ⟨drawn 10, fun i => drawn (10 + i + 1)⟩
  · trivial

/-- With the second tenant ingesting the same work first, the first one is answered what
it is answered alone, where its book is 23 instead of 21. -/
theorem visits_do_not_interfere :
    (final (serve plainEnvironment) .empty (visit 2 ++ visit 1)).db.catalog.books.rows.length = 2 ∧
      responsesTo plainEnvironment 1 .empty ((visit 1).map (renameOperation (Equiv.swap 21 23))) =
        (responsesTo plainEnvironment 1 .empty (visit 2 ++ visit 1)).map
          (renameResponse (Equiv.swap 21 23)) ∧
      JoinsWithinTenants (final (serve plainEnvironment) .empty (visit 2 ++ visit 1)).db := by
  have drawn : ∀ op ∈ visit 2 ++ visit 1, DrawnForTenant parityOwner op := by
    intro op mem
    rcases List.mem_append.mp mem with second | first
    · exact drawn_visit (.inr rfl) op second
    · exact drawn_visit (.inl rfl) op first
  have drawnAlone : ∀ op ∈ (visit 1).map (renameOperation (Equiv.swap 21 23)),
      DrawnForTenant (parityOwner ∘ (Equiv.swap 21 23).symm) op := by
    intro op mem
    obtain ⟨original, originalMem, rfl⟩ := List.mem_map.mp mem
    exact (drawn_visit (.inl rfl) original originalMem).rename _
  constructor
  · decide +kernel
  · exact noninterference plainEnvironment (isolated_empty _) (isolated_empty _) drawn drawnAlone 1 _
      (fixes_empty _ 1 _) rfl

end TenantLibrary.Tenancy
