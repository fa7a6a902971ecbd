import TenantLibrary.Api.Endpoints
import TenantLibrary.Tenancy.Programs

/-!
The endpoints stay on the rows of their tenant.

The listings and details read link tables and item tables without asking for the tenant.
They find the same there among the tenant's rows, because a link of one of the tenant's
books leads to one of its authors.
-/

namespace TenantLibrary.Tenancy

open TenantLibrary.Lib TenantLibrary.Lib.Share TenantLibrary.OpenLibrary TenantLibrary.Store
  TenantLibrary.Ingestion TenantLibrary.ReadingLists TenantLibrary.Books TenantLibrary.Api

variable {owner : Uuid → Uuid} {tenantId : Uuid} {before : Database}

/-! ### Books -/

section Catalog

variable {c : Catalog} {bookId : Uuid} (sound : PartitionedCatalog owner c)
  (own : owner bookId = tenantId)

include sound own in
theorem hasAuthorLike_seen (collation : Collation) (pattern : String) :
    hasAuthorLike collation pattern (restrictCatalog owner tenantId c) bookId =
      hasAuthorLike collation pattern c bookId := by
  rw [Bool.eq_iff_iff]
  simp only [hasAuthorLike, List.any_eq_true, Bool.and_eq_true, decide_eq_true_eq,
    restrictCatalog, Table.rows_filter, List.mem_filter]
  constructor
  · rintro ⟨l, ⟨link, _⟩, same, a, ⟨author, _⟩, named⟩
    exact ⟨l, link, same, a, author, named⟩
  · rintro ⟨l, link, same, a, author, id, named⟩
    have ownLink : owner l.bookId = tenantId := (congrArg owner same).trans own
    have ownAuthor : owner a.id = tenantId :=
      (congrArg owner id).trans ((sound.links l link).1.trans ownLink)
    exact ⟨l, ⟨link, ownLink⟩, same, a, ⟨author, ownAuthor⟩, id, named⟩

include own in
theorem hasSubjectLike_seen (collation : Collation) (pattern : String) :
    hasSubjectLike collation pattern (restrictCatalog owner tenantId c) bookId =
      hasSubjectLike collation pattern c bookId := by
  apply any_filter
  intro s _ holds
  rw [Bool.and_eq_true, decide_eq_true_eq] at holds
  exact decide_eq_true ((congrArg owner holds.1).trans own)

include own in
theorem rows_of_seen {α : Type} (rows : List α) (key : α → Uuid) :
    ((rows.filter fun a => owner (key a) = tenantId).filter fun a => key a = bookId) =
      rows.filter fun a => key a = bookId := by
  apply select_filter
  intro a _ same
  exact decide_eq_true ((congrArg owner (of_decide_eq_true same)).trans own)

include sound own in
theorem authorsOf_seen :
    authorsOf (restrictCatalog owner tenantId c) bookId = authorsOf c bookId := by
  simp only [authorsOf, restrictCatalog, Table.rows_filter, rows_of_seen own]
  apply List.filterMap_congr
  intro l mem
  obtain ⟨link, same⟩ := List.mem_filter.mp mem
  have ownAuthor : owner l.authorId = tenantId :=
    (sound.links l link).1.trans ((congrArg owner (of_decide_eq_true same)).trans own)
  rw [List.find?_filter]
  congr 1
  funext a
  by_cases id : a.id = l.authorId
  · simp [id, ownAuthor]
  · simp [id]

include own in
theorem subjectsOf_seen :
    subjectsOf (restrictCatalog owner tenantId c) bookId = subjectsOf c bookId := by
  simp only [subjectsOf, restrictCatalog, Table.rows_filter, rows_of_seen own]

include sound own in
theorem select_seen (collation : Collation) (filters : BookFilters) {b : Book} (id : b.id = bookId) :
    filters.select collation (restrictCatalog owner tenantId c) b =
      filters.select collation c b := by
  subst id
  simp only [BookFilters.select, hasAuthorLike_seen sound own, hasSubjectLike_seen own]

end Catalog

/-- The books of a tenant are those with an identifier of the tenant. -/
theorem own_of_mem_baseRows {collation : Collation} {filters : BookFilters} {c : Catalog} {b : Book}
    (sound : PartitionedCatalog owner c) (mem : b ∈ baseRows collation tenantId filters c) :
    owner b.id = tenantId := by
  obtain ⟨stored, holds⟩ := List.mem_filter.mp mem
  rw [Bool.and_eq_true, decide_eq_true_eq] at holds
  exact (sound.books b stored).trans holds.1

theorem baseRows_seen (collation : Collation) (filters : BookFilters) {c : Catalog}
    (sound : PartitionedCatalog owner c) :
    baseRows collation tenantId filters (restrictCatalog owner tenantId c) =
      baseRows collation tenantId filters c := by
  have among : baseRows collation tenantId filters (restrictCatalog owner tenantId c) =
      (restrictCatalog owner tenantId c).books.rows.filter fun b =>
        b.tenantId = tenantId && filters.select collation c b := by
    apply List.filter_congr
    intro b mem
    obtain ⟨_, own⟩ := List.mem_filter.mp mem
    rw [select_seen sound (of_decide_eq_true own) collation filters rfl]
  rw [among]
  apply select_filter
  intro b mem holds
  rw [Bool.and_eq_true, decide_eq_true_eq] at holds
  exact decide_eq_true ((sound.books b mem).trans holds.1)

theorem bookSummary_seen {c : Catalog} {b : Book} (sound : PartitionedCatalog owner c)
    (own : owner b.id = tenantId) :
    bookSummary (restrictCatalog owner tenantId c) b = bookSummary c b := by
  rw [bookSummary, bookSummary, authorsOf_seen sound own, subjectsOf_seen own]

theorem bookDetail_seen {c : Catalog} {b : Book} (sound : PartitionedCatalog owner c)
    (own : owner b.id = tenantId) :
    bookDetail (restrictCatalog owner tenantId c) b = bookDetail c b := by
  rw [bookDetail, bookDetail, authorsOf_seen sound own, subjectsOf_seen own]

/-- A page has rows of the listing only. -/
theorem mem_of_mem_slice {α : Type} {params : PageParams} {rows : List α} {a : α}
    (mem : a ∈ params.slice rows) : a ∈ rows :=
  List.mem_of_mem_drop (List.mem_of_mem_take mem)

theorem pageOfBooks_seen (collation : Collation) (filters : BookFilters) (params : PageParams)
    {c : Catalog} (sound : PartitionedCatalog owner c) :
    pageOfBooks collation tenantId filters params (restrictCatalog owner tenantId c) =
      pageOfBooks collation tenantId filters params c := by
  rw [pageOfBooks, pageOfBooks, baseRows_seen collation filters sound]
  apply List.map_congr_left
  intro b mem
  exact bookSummary_seen sound
    (own_of_mem_baseRows sound (List.mem_mergeSort.mp (mem_of_mem_slice mem)))

theorem local_listBooks {collation : Collation} {filters : BookFilters} {params : PageParams} :
    (share owner tenantId before).Local (listBooks collation tenantId filters params)
      fun _ => True := by
  apply (local_selectBinding ?counted).bind
  case counted =>
    intro db sound
    exact congrArg List.length (baseRows_seen collation filters sound.catalog)
  intro total _
  apply (local_selectBinding ?paged).bind
  case paged =>
    intro db sound
    exact pageOfBooks_seen collation filters params sound.catalog
  intro items _
  exact Local.pure trivial

theorem local_getBook {bookId : Uuid} :
    (share owner tenantId before).Local (getBook tenantId bookId) fun _ => True := by
  apply (local_select ?seen).bind
  case seen =>
    intro db sound
    rw [books_seen sound fun b => b.id = bookId]
    apply List.map_congr_left
    intro b mem
    obtain ⟨stored, holds⟩ := List.mem_filter.mp mem
    rw [Bool.and_eq_true, decide_eq_true_eq] at holds
    exact bookDetail_seen sound.catalog ((sound.catalog.books b stored).trans holds.1)
  intro rows _
  exact (local_scalarOneOrNone rows).weaken fun _ _ => trivial

/-! ### Jobs, activity log and reading lists -/

theorem tenantJobs_seen {db : Database} (sound : Partitioned owner db) :
    tenantJobs tenantId (restrict owner tenantId db) = tenantJobs tenantId db := by
  apply select_filter
  intro j mem holds
  exact decide_eq_true ((sound.jobs j mem).trans (of_decide_eq_true holds))

theorem tenantLogs_seen {db : Database} (sound : Partitioned owner db) :
    tenantLogs tenantId (restrict owner tenantId db) = tenantLogs tenantId db := by
  apply select_filter
  intro l mem holds
  exact decide_eq_true ((sound.logs l mem).trans (of_decide_eq_true holds))

theorem tenantLists_seen {db : Database} (sound : Partitioned owner db) :
    tenantLists tenantId (restrict owner tenantId db) = tenantLists tenantId db := by
  apply select_filter
  intro l mem holds
  exact decide_eq_true ((sound.lists l mem).trans (of_decide_eq_true holds))

theorem readingListOut_seen {db : Database} {rl : ReadingList} (own : owner rl.id = tenantId) :
    readingListOut (restrict owner tenantId db) rl = readingListOut db rl := by
  simp only [readingListOut, restrict, Table.rows_filter, rows_of_seen own]

/-- A listing whose rows, and what is shown of them, are the same among the tenant's rows. -/
theorem local_listNewestFirst {α β : Type} {params : PageParams} {rows : Database → List α}
    {out : Database → α → β}
    (seen : ∀ db, Partitioned owner db → rows (restrict owner tenantId db) = rows db)
    (shown : ∀ db, Partitioned owner db → ∀ a ∈ rows db,
      out (restrict owner tenantId db) a = out db a) :
    (share owner tenantId before).Local (listNewestFirst params rows out) fun _ => True := by
  apply (local_select ?counted).bind
  case counted =>
    intro db sound
    rw [seen db sound]
  intro total _
  apply (local_selectBinding ?paged).bind
  case paged =>
    intro db sound
    rw [seen db sound]
    apply List.map_congr_left
    intro a mem
    exact shown db sound a (List.mem_reverse.mp (mem_of_mem_slice mem))
  intro items _
  exact Local.pure trivial

theorem local_listJobs {params : PageParams} :
    (share owner tenantId before).Local (listJobs tenantId params) fun _ => True :=
  local_listNewestFirst (fun _ => tenantJobs_seen) fun _ _ _ _ => rfl

theorem local_listActivityLog {params : PageParams} :
    (share owner tenantId before).Local (listActivityLog tenantId params) fun _ => True :=
  local_listNewestFirst (fun _ => tenantLogs_seen) fun _ _ _ _ => rfl

theorem local_listReadingLists {params : PageParams} :
    (share owner tenantId before).Local (listReadingLists tenantId params) fun _ => True := by
  apply local_listNewestFirst (fun _ => tenantLists_seen)
  intro db sound rl mem
  obtain ⟨stored, same⟩ := List.mem_filter.mp mem
  exact readingListOut_seen ((sound.lists rl stored).trans (of_decide_eq_true same))

theorem local_getJob {jobId : Uuid} :
    (share owner tenantId before).Local (getJob tenantId jobId) fun _ => True := by
  apply (local_select ?seen).bind
  case seen =>
    intro db sound
    apply congrArg (List.map jobDetail)
    apply select_filter
    intro j mem holds
    rw [Bool.and_eq_true, decide_eq_true_eq] at holds
    exact decide_eq_true ((sound.jobs j mem).trans holds.1)
  intro rows _
  exact (local_scalarOneOrNone rows).weaken fun _ _ => trivial

theorem local_getReadingList {readingListId : Uuid} :
    (share owner tenantId before).Local (getReadingList tenantId readingListId)
      fun _ => True := by
  apply (local_select ?seen).bind
  case seen =>
    intro db sound
    rw [lists_seen sound fun l => l.id = readingListId]
    apply List.map_congr_left
    intro l mem
    obtain ⟨stored, holds⟩ := List.mem_filter.mp mem
    rw [Bool.and_eq_true, decide_eq_true_eq] at holds
    exact readingListOut_seen ((sound.lists l stored).trans holds.1)
  intro rows _
  exact (local_scalarOneOrNone rows).weaken fun _ _ => trivial

theorem local_triggerIngestion {body : IngestionBody} {jobId : Uuid}
    (own : owner jobId = tenantId) :
    (share owner tenantId before).Local (triggerIngestion tenantId body jobId)
      fun _ => True := by
  refine Local.bind (local_add ⟨own, rfl⟩) ?_
  intro _ _
  apply local_commit.bind
  intro _ _
  exact Local.pure trivial

/-! ### Requests -/

/-- The identifiers drawn while an operation is served are its tenant's. -/
def DrawnForTenant (owner : Uuid → Uuid) (op : Operation) : Prop :=
  match op.request with
  | .triggerIngestion _ jobId => owner jobId = op.tenantId
  | .submitReadingList _ draws _ => SubmitDrawnFor owner op.tenantId draws
  | .ingestWorks _ attempt => AttemptDrawnFor owner op.tenantId attempt
  | _ => True

/-- A task of a tenant is about one of its jobs. -/
def OwnsTask (owner : Uuid → Uuid) (tenantId : Uuid) (args : TaskArgs) : Prop :=
  args.tenantId = tenantId ∧ owner args.jobId = tenantId

theorem local_handle {env : Environment} {op : Operation} {tasks : List TaskArgs}
    (drawn : DrawnForTenant owner op) (owned : ∀ args ∈ tasks, OwnsTask owner op.tenantId args) :
    (share owner op.tenantId before).Local (handle env op.tenantId tasks op.request)
      fun _ => True := by
  obtain ⟨tenantId, request⟩ := op
  -- the response is made from what the service returns
  have responds : ∀ {α : Type} {program : IngestM α} {respond : α → Response},
      ((share owner tenantId before).Local program fun _ => True) →
        (share owner tenantId before).Local (do return respond (← program)) fun _ => True :=
    fun served => served.bind fun _ _ => Local.pure trivial
  cases request with
  | listBooks filters params => exact responds local_listBooks
  | getBook bookId => exact responds local_getBook
  | triggerIngestion body jobId => exact responds (local_triggerIngestion drawn)
  | listJobs params => exact responds local_listJobs
  | getJob jobId => exact responds local_getJob
  | listActivityLog params => exact responds local_listActivityLog
  | submitReadingList submission draws answers => exact responds (local_submit drawn)
  | listReadingLists params => exact responds local_listReadingLists
  | getReadingList readingListId => exact responds local_getReadingList
  | ingestWorks position attempt =>
      unfold handle
      dsimp only
      split
      case h_1 => exact Local.pure trivial
      case h_2 args found =>
        obtain ⟨rfl, ownJob⟩ := owned args (List.mem_of_getElem? found)
        exact responds (local_ingestWorksAsync ownJob drawn)

end TenantLibrary.Tenancy
