import TenantLibrary.Api.Blind
import TenantLibrary.Api.PageTurning
import TenantLibrary.Api.ReadBack

/-!
What becomes of the identifiers that a tenant is given.

Responses name books, jobs and reading lists by identifiers. The row with an identifier is never
deleted, and neither its tenant nor what it stands for changes (`Reference.stored_final`). So
every identifier in a response opens for its tenant in every later state, as what it was, and
for no other tenant (`references_resolve`).
-/

namespace TenantLibrary.Api

open TenantLibrary.Lib TenantLibrary.Lib.Share TenantLibrary.OpenLibrary TenantLibrary.Store
  TenantLibrary.Ingestion TenantLibrary.ReadingLists TenantLibrary.Books

/-! ### References -/

/-- An identifier, with the columns of its row that are set once. -/
inductive Reference where
  | book (id : Uuid) (olWorkKey : String)
  | job (id : Uuid) (queryType : QueryType) (queryValue : String) (limit : Nat)
  | readingList (id : Uuid) (emailMasked : String)
deriving DecidableEq

namespace Reference

/-- The request that opens it. -/
def request : Reference → Request
  | .book id _ => .getBook id
  | .job id _ _ _ => .getJob id
  | .readingList id _ => .getReadingList id

/-- What a tenant is told that has no such row. -/
def missing : Reference → String
  | .book _ _ => "Book not found"
  | .job _ _ _ _ => "Job not found"
  | .readingList _ _ => "Reading list not found"

/-- References to one row. -/
def SameId : Reference → Reference → Prop
  | .book id _, .book other _ => id = other
  | .job id _ _ _, .job other _ _ _ => id = other
  | .readingList id _, .readingList other _ => id = other
  | _, _ => False

def IsBook (id : Uuid) (olWorkKey : String) (tenantId : Uuid) (b : Book) : Prop :=
  b.id = id ∧ b.tenantId = tenantId ∧ b.olWorkKey = olWorkKey

def IsJob (id : Uuid) (queryType : QueryType) (queryValue : String) (limit : Nat)
    (tenantId : Uuid) (j : IngestionJob) : Prop :=
  j.id = id ∧ j.tenantId = tenantId ∧ j.queryType = queryType ∧ j.queryValue = queryValue ∧
    j.limit = limit

def IsList (id : Uuid) (emailMasked : String) (tenantId : Uuid) (l : ReadingList) : Prop :=
  l.id = id ∧ l.tenantId = tenantId ∧ l.emailMasked = emailMasked

/-- The row is stored and is the tenant's. -/
def StoredFor (tenantId : Uuid) (db : Database) : Reference → Prop
  | .book id olWorkKey => ∃ b ∈ db.catalog.books.rows, IsBook id olWorkKey tenantId b
  | .job id queryType queryValue limit =>
      ∃ j ∈ db.jobs.rows, IsJob id queryType queryValue limit tenantId j
  | .readingList id emailMasked => ∃ l ∈ db.readingLists.rows, IsList id emailMasked tenantId l

end Reference

/-- The references in a response. The answers to a new job and to a submission give the
identifier alone. -/
def Response.Names : Response → Reference → Prop
  | .books page, .book id olWorkKey =>
      ∃ item ∈ page.items, item.id = id ∧ item.olWorkKey = olWorkKey
  | .book detail, .book id olWorkKey => detail.id = id ∧ detail.olWorkKey = olWorkKey
  | .jobs page, .job id queryType queryValue limit => ∃ item ∈ page.items,
      item.id = id ∧ item.queryType = queryType ∧ item.queryValue = queryValue ∧ item.limit = limit
  | .job detail, .job id queryType queryValue limit =>
      detail.id = id ∧ detail.queryType = queryType ∧ detail.queryValue = queryValue ∧
        detail.limit = limit
  | .ingestionQueued response, .job id _ _ _ => response.jobId = id
  | .readingLists page, .readingList id emailMasked =>
      ∃ item ∈ page.items, item.id = id ∧ item.emailMasked = emailMasked
  | .readingList detail, .readingList id emailMasked =>
      detail.id = id ∧ detail.emailMasked = emailMasked
  | .submitted response, .readingList id _ => response.readingListId = id
  | _, _ => False

/-! ### Rows stay what they are -/

variable {tenantId : Uuid} {ref : Reference} {db after : Database} {env : Environment}

/-- An update of the job keeps it what it is. -/
def Reference.KeptBy (tenantId : Uuid) : Reference → Write → Prop
  | .job id queryType queryValue limit, .updateJob row =>
      row.id = id → IsJob id queryType queryValue limit tenantId row
  | _, _ => True

/-- Watching over the row of a reference. -/
def watching (tenantId : Uuid) (ref : Reference) : Share Database Write where
  view := id
  translate := id
  Inv db := ref.StoredFor tenantId db
  Owns := ref.KeptBy tenantId

/-- A statement on the catalog keeps what a book is. -/
theorem isBook_of_run {id : Uuid} {olWorkKey : String} {write : CatalogWrite} {c after : Catalog}
    (sent : write.run c = .ok after)
    (stored : ∃ b ∈ c.books.rows, Reference.IsBook id olWorkKey tenantId b) :
    ∃ b ∈ after.books.rows, Reference.IsBook id olWorkKey tenantId b := by
  obtain ⟨b, mem, is⟩ := stored
  cases write with
  | insertBook bookId tenant key values =>
      obtain ⟨title, _, books, inserted, rfl⟩ := run_insertBook.mp sent
      exact ⟨b, Table.mem_insert_of_mem inserted mem, is⟩
  | updateBook bookId values =>
      obtain ⟨title, _, rfl⟩ := run_updateBook.mp sent
      refine ⟨b.assign bookId values title, List.mem_map_of_mem mem, ?_⟩
      simpa [Reference.IsBook] using is
  | insertAuthor authorId tenant key name =>
      obtain ⟨text, _, authors, _, rfl⟩ := run_insertAuthor.mp sent
      exact ⟨b, mem, is⟩
  | insertBookAuthor bookId authorId =>
      obtain ⟨_, _, bookAuthors, _, rfl⟩ := run_insertBookAuthor.mp sent
      exact ⟨b, mem, is⟩
  | insertBookSubject bookId subject =>
      obtain ⟨_, bookSubjects, _, rfl⟩ := run_insertBookSubject.mp sent
      exact ⟨b, mem, is⟩

theorem isList_replaceList {id : Uuid} {emailMasked : String} {list l : ReadingList}
    (is : Reference.IsList id emailMasked tenantId l) :
    Reference.IsList id emailMasked tenantId (replaceList list l) := by
  unfold replaceList
  split
  · exact is
  · exact is

/-- A statement on other tables keeps the row. -/
theorem Reference.StoredFor.of_same (stored : ref.StoredFor tenantId db)
    (catalog : after.catalog = db.catalog) (jobs : after.jobs = db.jobs)
    (lists : after.readingLists = db.readingLists) : ref.StoredFor tenantId after := by
  cases ref with
  | book id olWorkKey =>
      unfold StoredFor
      rw [catalog]
      exact stored
  | job id queryType queryValue limit =>
      unfold StoredFor
      rw [jobs]
      exact stored
  | readingList id emailMasked =>
      unfold StoredFor
      rw [lists]
      exact stored

/-- A statement on the catalog keeps the row. -/
theorem Reference.StoredFor.of_catalog {write : CatalogWrite} {catalog : Catalog}
    (stored : ref.StoredFor tenantId db) (sent : write.run db.catalog = .ok catalog) :
    ref.StoredFor tenantId { db with catalog } := by
  cases ref with
  | book id olWorkKey => exact isBook_of_run sent stored
  | job id queryType queryValue limit => exact stored
  | readingList id emailMasked => exact stored

theorem Reference.StoredFor.of_jobs {jobs : Table IngestionJob IngestionJob.Clash}
    (stored : ref.StoredFor tenantId db)
    (kept : ∀ id queryType queryValue limit, ref = .job id queryType queryValue limit →
      ∀ j ∈ db.jobs.rows, IsJob id queryType queryValue limit tenantId j →
        ∃ j' ∈ jobs.rows, IsJob id queryType queryValue limit tenantId j') :
    ref.StoredFor tenantId { db with jobs } := by
  cases ref with
  | book id olWorkKey => exact stored
  | job id queryType queryValue limit =>
      obtain ⟨j, mem, is⟩ := stored
      exact kept id queryType queryValue limit rfl j mem is
  | readingList id emailMasked => exact stored

theorem Reference.StoredFor.of_lists {readingLists : Table ReadingList ReadingList.Clash}
    (stored : ref.StoredFor tenantId db)
    (kept : ∀ id emailMasked, ∀ l ∈ db.readingLists.rows, IsList id emailMasked tenantId l →
      ∃ l' ∈ readingLists.rows, IsList id emailMasked tenantId l') :
    ref.StoredFor tenantId { db with readingLists } := by
  cases ref with
  | book id olWorkKey => exact stored
  | job id queryType queryValue limit => exact stored
  | readingList id emailMasked =>
      obtain ⟨l, mem, is⟩ := stored
      exact kept id emailMasked l mem is

/-- A statement keeps the row, unless it makes another job of it. -/
theorem Reference.StoredFor.send {refuse : Refusal} {write : Write}
    (stored : ref.StoredFor tenantId db) (keeps : ref.KeptBy tenantId write)
    (sent : write.send refuse db = .ok after) : ref.StoredFor tenantId after := by
  cases write with
  | catalog write =>
      obtain ⟨catalog, ran, made⟩ := bind_eq_ok.mp sent
      obtain rfl := Except.ok.inj made
      exact stored.of_catalog (send_eq_ok.mp ran).2
  | insertJob row =>
      obtain ⟨_, _, sent⟩ := bind_eq_ok.mp sent
      obtain ⟨jobs, inserted, made⟩ := bind_eq_ok.mp sent
      obtain rfl := Except.ok.inj made
      refine stored.of_jobs fun id queryType queryValue limit _ j mem is => ⟨j, ?_, is⟩
      exact Table.mem_insert_of_mem (orUniqueViolation_eq_ok.mp inserted) mem
  | updateJob row =>
      obtain rfl := Except.ok.inj sent
      apply stored.of_jobs
      intro id queryType queryValue limit isJob j mem is
      refine ⟨replaceJob row j, List.mem_map_of_mem mem, ?_⟩
      subst isJob
      unfold replaceJob
      split
      case isTrue same => exact keeps (same.symm.trans is.1)
      case isFalse => exact is
  | insertLog log =>
      obtain ⟨logs, _, made⟩ := bind_eq_ok.mp sent
      obtain rfl := Except.ok.inj made
      exact stored.of_same rfl rfl rfl
  | updateLog log =>
      obtain rfl := Except.ok.inj sent
      exact stored.of_same rfl rfl rfl
  | insertReadingList list =>
      obtain ⟨_, lists, inserted, rfl⟩ := insertReadingList_eq_ok.mp sent
      exact stored.of_lists fun id emailMasked l mem is =>
        ⟨l, Table.mem_insert_of_mem inserted mem, is⟩
  | updateReadingList list =>
      obtain ⟨_, rfl⟩ := updateReadingList_eq_ok.mp sent
      exact stored.of_lists fun id emailMasked l mem is =>
        ⟨replaceList list.cut l, List.mem_map_of_mem mem, isList_replaceList is⟩
  | deleteReadingListItems readingListId =>
      obtain rfl := Except.ok.inj sent
      exact stored.of_same rfl rfl rfl
  | insertReadingListItem item =>
      obtain ⟨_, _, items, _, rfl⟩ := insertReadingListItem_eq_ok.mp sent
      exact stored.of_same rfl rfl rfl

/-! ### Requests keep the rows -/

theorem sends_watching (refuse : Refusal) :
    (watching tenantId ref).Sends (Write.send refuse) (Write.send refuse) := by
  intro write db keeps stored
  refine ⟨(congrFun Except.map_id (write.send refuse db)).symm, ?_⟩
  intro after sent
  exact Reference.StoredFor.send stored keeps sent

/-- What a job is written back as, when it was loaded from the table. -/
theorem keptBy_updateJob {job row : IngestionJob} (stored : ref.StoredFor tenantId db)
    (mem : job ∈ db.jobs.rows) (same : SameJob row job) : ref.KeptBy tenantId (.updateJob row) := by
  cases ref with
  | book id olWorkKey => trivial
  | job id queryType queryValue limit =>
      intro rowId
      obtain ⟨j, jMem, is⟩ := stored
      obtain rfl : job = j := db.jobs.eq_of_clash (fun _ _ => Eq.symm) mem jMem
        (same.id.symm.trans (rowId.trans is.1.symm))
      obtain ⟨_, tenant, type, value, number⟩ := is
      exact ⟨rowId, same.tenantId.trans tenant, same.queryType.trans type,
        same.queryValue.trans value, same.limit.trans number⟩
  | readingList id emailMasked => trivial

theorem keptBy_other {write : Write} (other : ∀ job, write ≠ .updateJob job) :
    ref.KeptBy tenantId write := by
  cases ref with
  | job id queryType queryValue limit =>
      cases write with
      | updateJob job => exact absurd rfl (other job)
      | _ => trivial
  | _ => trivial

theorem blind_watching : Blind (watching tenantId ref) where
  sends := sends_watching
  catalog _ := rfl
  jobs _ := rfl
  logs _ := rfl
  items _ := rfl
  lists := ⟨id, fun _ => ⟨rfl, rfl, rfl, rfl⟩, fun _ => (List.map_id _).symm⟩
  free write free := by
    refine ⟨keptBy_other ?_, rfl⟩
    rintro job rfl
    exact free
  updates db job row stored mem same := ⟨keptBy_updateJob stored mem same, rfl⟩

theorem unaware_submit {own : Uuid} {hashing : Hashing} {submission : Submission}
    {draws : SubmitDraws} {answers : Nat → ReferenceAnswers} :
    Unaware (watching tenantId ref) (submit hashing own submission draws answers) := by
  have blind : Blind (watching tenantId ref) := blind_watching
  have insert : ∀ list : ReadingList,
      Unaware (watching tenantId ref) (SessionM.add (.insertReadingList list)) :=
    fun list => Local.add (keptBy_other fun _ same => by cases same) rfl
  have update : ∀ list : ReadingList,
      Unaware (watching tenantId ref) (SessionM.add (.updateReadingList list)) :=
    fun list => Local.add (keptBy_other fun _ same => by cases same) rfl
  apply (unaware_liftAnswer _).bind
  intro emailMasked
  apply (blind.select fun _ => rfl).bind
  intro rows
  apply (unaware_scalarOneOrNone rows).bind
  intro existing
  have stored : ∀ id isUpdate nameMasked,
      Unaware (watching tenantId ref)
        (storeAndAnswer own id isUpdate nameMasked emailMasked submission.books draws answers) :=
    fun _ _ _ => blind.unaware_storeAndAnswer
  cases existing with
  | none => exact (insert _).bind fun _ => blind.flush.bind fun _ => stored _ _ _
  | some list =>
      have cleared : Unaware (watching tenantId ref) (do
          SessionM.add (.deleteReadingListItems list.id)
          SessionM.flush (Write.send Refusal.never)
          storeAndAnswer own list.id true (maskName submission.patronName) emailMasked
            submission.books draws answers) :=
        Unaware.bind (blind.add trivial) fun _ => blind.flush.bind fun _ => stored _ _ _
      dsimp only
      split
      · exact (update _).bind fun _ => cleared
      · exact cleared

/-- A request of any tenant keeps the row. -/
theorem Reference.StoredFor.serve {s : Service} (stored : ref.StoredFor tenantId s.db)
    (op : Operation) : ref.StoredFor tenantId (Api.serve env s op).2.db := by
  have unaware : Unaware (watching tenantId ref)
      (handle env op.tenantId (s.enqueued op.tenantId) op.request) := by
    cases patron : op.request.submitted with
    | none => exact blind_watching.unaware_handle patron
    | some submission =>
        obtain ⟨own, request⟩ := op
        cases request with
        | submitReadingList submission draws answers =>
            exact unaware_submit.bind fun _ => .pure _
        | _ => cases patron
  unfold Api.serve
  rw [Service.db_enqueue]
  exact (Carries.run unaware stored).1

/-- The row stays in every later state. -/
theorem Reference.StoredFor.final {s : Service} {later : List Operation}
    (stored : ref.StoredFor tenantId s.db) :
    ref.StoredFor tenantId (Lib.final (Api.serve env) s later).db := by
  induction later generalizing s with
  | nil => exact stored
  | cons op rest ih => exact ih (stored.serve op)

/-! ### Opening -/

section Open

variable {s : Service}

/-- The only row with the identifier, among those of its tenant. -/
theorem filter_own {Row : Type} {Clash : Row → Row → Prop} {t : Table Row Clash}
    (tenantOf idOf : Row → Uuid) (unique : ∀ a b, idOf a = idOf b → Clash a b) {row : Row}
    (mem : row ∈ t.rows) (own : tenantOf row = tenantId) :
    (t.rows.filter fun a => tenantOf a = tenantId && idOf a = idOf row) = [row] := by
  have kept : row ∈ t.rows.filter fun a => tenantOf a = tenantId && idOf a = idOf row :=
    List.mem_filter.mpr ⟨mem, by simp [own]⟩
  have atMostOne : (t.rows.filter fun a => tenantOf a = tenantId && idOf a = idOf row).length ≤ 1 :=
    t.filter_length_le_one (Table.clash_of_columns fun a b _ => unique a b)
  obtain ⟨only, rows⟩ :=
    List.length_eq_one_iff.mp (atMostOne.antisymm (List.length_pos_of_mem kept))
  rw [rows, List.mem_singleton] at kept
  rw [rows, kept]

/-- No row of another tenant has the identifier. -/
theorem filter_other {Row : Type} {Clash : Row → Row → Prop} {t : Table Row Clash}
    (tenantOf idOf : Row → Uuid) (symm : ∀ a b, Clash a b → Clash b a)
    (unique : ∀ a b, idOf a = idOf b → Clash a b) {row : Row} (mem : row ∈ t.rows) {other : Uuid}
    (foreign : tenantOf row ≠ other) :
    (t.rows.filter fun a => tenantOf a = other && idOf a = idOf row) = [] := by
  apply List.filter_eq_nil_iff.mpr
  intro a aMem selected
  simp only [Bool.and_eq_true, decide_eq_true_eq] at selected
  obtain rfl := t.eq_of_clash symm aMem mem (unique a row selected.2)
  exact foreign selected.1

/-- A detail request is answered with the row it finds, or with 404. -/
theorem serve_row {α : Type} {request : Request} {query : Database → List α} {text : String}
    {respond : α → Response} (found : Option α)
    (handled : handle env tenantId (s.enqueued tenantId) request = (do
      return orNotFound text respond (← (do
        let rows ← SessionM.select (Write.send Refusal.never) query
        scalarOneOrNone rows))))
    (rows : query s.db = found.toList) :
    (serve env s ⟨tenantId, request⟩).1 = orNotFound text respond found := by
  have ran : (do
      let rows ← SessionM.select (Write.send Refusal.never) query
      scalarOneOrNone rows : IngestM (Option α)).runOn (.opened s.db) =
        (.ok found, .opened s.db) := by
    change (scalarOneOrNone (query s.db)).runOn (.opened s.db) = _
    rw [rows]
    cases found <;> rfl
  unfold serve
  dsimp only
  rw [handled, SessionM.runOn_bind_ok ran]
  rfl

/-- The tenant's request for the row shows what it is. -/
theorem Reference.StoredFor.opens (stored : ref.StoredFor tenantId s.db) :
    (Api.serve env s ⟨tenantId, ref.request⟩).1.Names ref := by
  cases ref with
  | book id olWorkKey =>
      obtain ⟨b, mem, rfl, own, key⟩ := stored
      rw [request, serve_row (some (bookDetail s.db.catalog b)) rfl]
      · exact ⟨rfl, key⟩
      · rw [filter_own Book.tenantId Book.id (fun _ _ same => .inl same) mem own]
        rfl
  | job id queryType queryValue limit =>
      obtain ⟨j, mem, rfl, own, asked⟩ := stored
      rw [request, serve_row (some (jobDetail j)) rfl]
      · exact ⟨rfl, asked⟩
      · rw [filter_own IngestionJob.tenantId IngestionJob.id (fun _ _ same => same) mem own]
        rfl
  | readingList id emailMasked =>
      obtain ⟨l, mem, rfl, own, masked⟩ := stored
      rw [request, serve_row (some (readingListOut s.db l)) rfl]
      · exact ⟨rfl, masked⟩
      · rw [filter_own ReadingList.tenantId ReadingList.id (fun _ _ same => .inl same) mem own]
        rfl

/-- The request of another tenant does not find it. -/
theorem Reference.StoredFor.closed (stored : ref.StoredFor tenantId s.db) {other : Uuid}
    (foreign : tenantId ≠ other) :
    (Api.serve env s ⟨other, ref.request⟩).1 = .notFound ref.missing := by
  cases ref with
  | book id olWorkKey =>
      obtain ⟨b, mem, rfl, own, _⟩ := stored
      have noRow :
          (s.db.catalog.books.rows.filter fun a => a.tenantId = other && a.id = b.id) = [] :=
        filter_other Book.tenantId Book.id (fun _ _ => Book.Clash.symm) (fun _ _ same => .inl same)
          mem (own ▸ foreign)
      refine serve_row none rfl ?_
      rw [noRow]
      rfl
  | job id queryType queryValue limit =>
      obtain ⟨j, mem, rfl, own, _⟩ := stored
      have noRow : (s.db.jobs.rows.filter fun a => a.tenantId = other && a.id = j.id) = [] :=
        filter_other IngestionJob.tenantId IngestionJob.id (fun _ _ => Eq.symm)
          (fun _ _ same => same) mem (own ▸ foreign)
      refine serve_row none rfl ?_
      rw [noRow]
      rfl
  | readingList id emailMasked =>
      obtain ⟨l, mem, rfl, own, _⟩ := stored
      have noRow :
          (s.db.readingLists.rows.filter fun a => a.tenantId = other && a.id = l.id) = [] :=
        filter_other ReadingList.tenantId ReadingList.id (fun _ _ => ReadingList.Clash.symm)
          (fun _ _ same => .inl same) mem (own ▸ foreign)
      refine serve_row none rfl ?_
      rw [noRow]
      rfl

/-! ### Naming -/

/-- What an operation names is a row of its tenant's afterwards. -/
def NamesStored (env : Environment) (s : Service) (op : Operation) : Prop :=
  ∀ ref, (serve env s op).1.Names ref → ∃ row : Reference, row.SameId ref ∧
    (serve env s op).1.Names row ∧ row.StoredFor op.tenantId (serve env s op).2.db

theorem mem_of_mem_listed {α β : Type} {params : PageParams} {rows : List α} {out : α → β} {b : β}
    (mem : b ∈ (params.slice rows).map out) : ∃ a ∈ rows, out a = b := by
  obtain ⟨a, listed, rfl⟩ := List.mem_map.mp mem
  exact ⟨a, List.mem_of_mem_drop (List.mem_of_mem_take listed), rfl⟩

/-! The listings are listings in one of the orders the database may use. -/

theorem listing_listBooks (filters : BookFilters) (params : PageParams) :
    handle env tenantId (s.enqueued tenantId) (.listBooks filters params) = (do
      return .books (← listIn (filterParameters filters) params
        (tenantBooks env.collation tenantId filters)
        (fun rows => rows.mergeSort (byTitle env.collation)) summaries)) := by
  rw [handle, listBooks_eq]

theorem listing_listJobs (params : PageParams) :
    handle env tenantId (s.enqueued tenantId) (.listJobs params) = (do
      return .jobs (← listIn [] params (tenantJobs tenantId) List.reverse fun _ => jobDetail)) := by
  rw [handle, listJobs, listNewestFirst_eq]

theorem listing_listReadingLists (params : PageParams) :
    handle env tenantId (s.enqueued tenantId) (.listReadingLists params) = (do
      return .readingLists
        (← listIn [] params (tenantLists tenantId) List.reverse readingListOut)) := by
  rw [handle, listReadingLists, listNewestFirst_eq]

theorem listing_listActivityLog (params : PageParams) :
    handle env tenantId (s.enqueued tenantId) (.listActivityLog params) = (do
      return .logs (← listIn [] params (tenantLogs tenantId) List.reverse fun _ => logEntry)) := by
  rw [handle, listActivityLog, listNewestFirst_eq]

/-- A listing is answered with its page, or refused. -/
theorem serve_listing {α β : Type} {request : Request} {binds : List Parameter}
    {params : PageParams} {rows : Database → List α} {order : List α → List α}
    {out : Database → α → β} {respond : PaginatedResponse β → Response}
    (handled : handle env tenantId (s.enqueued tenantId) request = (do
      return respond (← listIn binds params rows order out))) :
    (serve env s ⟨tenantId, request⟩).1 = respond (params.respond (rows s.db).length
        ((params.slice (order (rows s.db))).map (out s.db))) ∨
      ∃ exc, (serve env s ⟨tenantId, request⟩).1 = .serverError exc := by
  have ran := @runOn_listIn _ _ binds rows out s.db params order
  unfold serve
  dsimp only
  rw [handled]
  split at ran
  case isTrue =>
    rw [SessionM.runOn_bind_ok ran]
    exact .inl rfl
  case isFalse =>
    rw [SessionM.runOn_bind_error ran]
    exact .inr ⟨_, rfl⟩

/-- A listing names the rows of its page. -/
theorem namesStored_of_listing {α β : Type} {request : Request} {binds : List Parameter}
    {params : PageParams} {rows : Database → List α} {order : List α → List α}
    {out : Database → α → β} {respond : PaginatedResponse β → Response}
    (handled : handle env tenantId (s.enqueued tenantId) request = (do
      return respond (← listIn binds params rows order out)))
    (shown : ∀ ref, (respond (params.respond (rows s.db).length
      ((params.slice (order (rows s.db))).map (out s.db)))).Names ref →
        ref.StoredFor tenantId s.db) :
    NamesStored env s ⟨tenantId, request⟩ := by
  intro ref names
  refine ⟨ref, ?_, names, Reference.StoredFor.serve ?_ _⟩
  · cases ref with
    | book id olWorkKey => rfl
    | job id queryType queryValue limit => rfl
    | readingList id emailMasked => rfl
  · rcases serve_listing handled with answered | ⟨exc, refused⟩
    · rw [answered] at names
      exact shown ref names
    · rw [refused] at names
      exact names.elim

theorem namesStored_listBooks (filters : BookFilters) (params : PageParams) :
    NamesStored env s ⟨tenantId, .listBooks filters params⟩ := by
  apply namesStored_of_listing (listing_listBooks filters params)
  intro ref names
  cases ref with
  | book id olWorkKey =>
      obtain ⟨item, mem, rfl, rfl⟩ := names
      obtain ⟨b, listed, rfl⟩ := mem_of_mem_listed mem
      obtain ⟨stored, selected⟩ := List.mem_filter.mp (List.mem_mergeSort.mp listed)
      rw [Bool.and_eq_true, decide_eq_true_eq] at selected
      exact ⟨b, stored, rfl, selected.1, rfl⟩
  | job id queryType queryValue limit => exact names.elim
  | readingList id emailMasked => exact names.elim

theorem namesStored_listJobs (params : PageParams) :
    NamesStored env s ⟨tenantId, .listJobs params⟩ := by
  apply namesStored_of_listing (listing_listJobs params)
  intro ref names
  cases ref with
  | book id olWorkKey => exact names.elim
  | job id queryType queryValue limit =>
      obtain ⟨item, mem, rfl, rfl, rfl, rfl⟩ := names
      obtain ⟨j, listed, rfl⟩ := mem_of_mem_listed mem
      obtain ⟨stored, own⟩ := List.mem_filter.mp (List.mem_reverse.mp listed)
      exact ⟨j, stored, rfl, of_decide_eq_true own, rfl, rfl, rfl⟩
  | readingList id emailMasked => exact names.elim

theorem namesStored_listReadingLists (params : PageParams) :
    NamesStored env s ⟨tenantId, .listReadingLists params⟩ := by
  apply namesStored_of_listing (listing_listReadingLists params)
  intro ref names
  cases ref with
  | book id olWorkKey => exact names.elim
  | job id queryType queryValue limit => exact names.elim
  | readingList id emailMasked =>
      obtain ⟨item, mem, rfl, rfl⟩ := names
      obtain ⟨l, listed, rfl⟩ := mem_of_mem_listed mem
      obtain ⟨stored, own⟩ := List.mem_filter.mp (List.mem_reverse.mp listed)
      exact ⟨l, stored, rfl, of_decide_eq_true own, rfl⟩

/-- The activity log gives out no identifier that can be asked for. -/
theorem namesStored_listActivityLog (params : PageParams) :
    NamesStored env s ⟨tenantId, .listActivityLog params⟩ :=
  namesStored_of_listing (listing_listActivityLog params) fun _ names => names.elim

/-- What a detail request can be answered with. -/
theorem serve_row_cases {α : Type} {request : Request} {query : Database → List α} {text : String}
    {respond : α → Response}
    (handled : handle env tenantId (s.enqueued tenantId) request = (do
      return orNotFound text respond (← (do
        let rows ← SessionM.select (Write.send Refusal.never) query
        scalarOneOrNone rows)))) :
    (serve env s ⟨tenantId, request⟩).1 = .notFound text ∨
      (∃ a ∈ query s.db, (serve env s ⟨tenantId, request⟩).1 = respond a) ∨
      ∃ exc, (serve env s ⟨tenantId, request⟩).1 = .serverError exc := by
  match rows : query s.db with
  | [] => exact .inl (serve_row none handled rows)
  | [a] => exact .inr (.inl ⟨a, List.mem_singleton_self a, serve_row (some a) handled rows⟩)
  | a :: b :: rest =>
      have ran : (do
          let rows ← SessionM.select (Write.send Refusal.never) query
          scalarOneOrNone rows : IngestM (Option α)).runOn (.opened s.db) = (.error (.raised (.other
            "Multiple rows were found when one or none was required")), .opened s.db) := by
        change (scalarOneOrNone (query s.db)).runOn (.opened s.db) = _
        rw [rows]
        rfl
      refine .inr (.inr ⟨.raised (.other
        "Multiple rows were found when one or none was required"), ?_⟩)
      unfold serve
      dsimp only
      rw [handled, SessionM.runOn_bind_error ran]
      rfl

/-- A detail names the row it was found in. -/
theorem namesStored_of_row {α : Type} {request : Request} {query : Database → List α}
    {text : String} {respond : α → Response}
    (handled : handle env tenantId (s.enqueued tenantId) request = (do
      return orNotFound text respond (← (do
        let rows ← SessionM.select (Write.send Refusal.never) query
        scalarOneOrNone rows))))
    (shown : ∀ a ∈ query s.db, ∀ ref, (respond a).Names ref → ref.StoredFor tenantId s.db) :
    NamesStored env s ⟨tenantId, request⟩ := by
  intro ref names
  refine ⟨ref, ?_, names, Reference.StoredFor.serve ?_ _⟩
  · cases ref with
    | book id olWorkKey => rfl
    | job id queryType queryValue limit => rfl
    | readingList id emailMasked => rfl
  · rcases serve_row_cases handled with missing | ⟨a, mem, found⟩ | ⟨exc, raised⟩
    · rw [missing] at names
      exact names.elim
    · rw [found] at names
      exact shown a mem ref names
    · rw [raised] at names
      exact names.elim

theorem namesStored_getBook (bookId : Uuid) : NamesStored env s ⟨tenantId, .getBook bookId⟩ := by
  apply namesStored_of_row rfl
  intro detail mem ref names
  obtain ⟨b, kept, rfl⟩ := List.mem_map.mp mem
  obtain ⟨stored, selected⟩ := List.mem_filter.mp kept
  rw [Bool.and_eq_true, decide_eq_true_eq] at selected
  cases ref with
  | book id olWorkKey =>
      obtain ⟨same, key⟩ := names
      exact ⟨b, stored, same, selected.1, key⟩
  | job id queryType queryValue limit => exact names.elim
  | readingList id emailMasked => exact names.elim

theorem namesStored_getJob (jobId : Uuid) : NamesStored env s ⟨tenantId, .getJob jobId⟩ := by
  apply namesStored_of_row rfl
  intro detail mem ref names
  obtain ⟨j, kept, rfl⟩ := List.mem_map.mp mem
  obtain ⟨stored, selected⟩ := List.mem_filter.mp kept
  rw [Bool.and_eq_true, decide_eq_true_eq] at selected
  cases ref with
  | book id olWorkKey => exact names.elim
  | job id queryType queryValue limit =>
      obtain ⟨same, asked⟩ := names
      exact ⟨j, stored, same, selected.1, asked⟩
  | readingList id emailMasked => exact names.elim

theorem namesStored_getReadingList (readingListId : Uuid) :
    NamesStored env s ⟨tenantId, .getReadingList readingListId⟩ := by
  apply namesStored_of_row rfl
  intro detail mem ref names
  obtain ⟨l, kept, rfl⟩ := List.mem_map.mp mem
  obtain ⟨stored, selected⟩ := List.mem_filter.mp kept
  rw [Bool.and_eq_true, decide_eq_true_eq] at selected
  cases ref with
  | book id olWorkKey => exact names.elim
  | job id queryType queryValue limit => exact names.elim
  | readingList id emailMasked =>
      obtain ⟨same, masked⟩ := names
      exact ⟨l, stored, same, selected.1, masked⟩

/-- A job is committed before its identifier is given out. -/
theorem triggerIngestion_returns {body : IngestionBody} {jobId : Uuid}
    {response : IngestionJobResponse} {u : Session Database Write}
    (ran : (triggerIngestion tenantId body jobId).runOn (.opened db) = (.ok response, u)) :
    response.jobId = jobId ∧ body.job tenantId jobId ∈ u.committed.jobs.rows := by
  rw [triggerIngestion, SessionM.runOn_bind_ok (SessionM.runOn_add _ _), SessionM.runOn_bind,
    SessionM.runOn_commit _ _ rfl] at ran
  simp only [Session.opened, List.nil_append] at ran
  cases sent : sendAll (Write.send Refusal.never) [.insertJob (body.job tenantId jobId)] db with
  | error e =>
      rw [sent] at ran
      cases (Prod.mk.inj ran).1
  | ok after =>
      rw [sent] at ran
      obtain ⟨returned, rfl⟩ := Prod.mk.inj ran
      obtain rfl := Except.ok.inj returned
      obtain ⟨next, first, done⟩ := bind_eq_ok.mp sent
      obtain rfl := Except.ok.inj done
      obtain ⟨_, _, stored⟩ := bind_eq_ok.mp first
      obtain ⟨jobs, inserted, made⟩ := bind_eq_ok.mp stored
      obtain rfl := Except.ok.inj made
      refine ⟨rfl, ?_⟩
      obtain ⟨_, rows⟩ := Table.insert_eq_some.mp (orUniqueViolation_eq_ok.mp inserted)
      change body.job tenantId jobId ∈ jobs.rows
      rw [rows]
      exact List.mem_append_right _ (List.mem_singleton_self _)

theorem namesStored_triggerIngestion (body : IngestionBody) (jobId : Uuid) :
    NamesStored env s ⟨tenantId, .triggerIngestion body jobId⟩ := by
  intro ref names
  rcases ran : (triggerIngestion tenantId body jobId).runOn (.opened s.db) with ⟨exc | response, u⟩
  · have answered :
        (serve env s ⟨tenantId, .triggerIngestion body jobId⟩).1 = .serverError exc := by
      unfold serve
      dsimp only [handle]
      rw [SessionM.runOn_bind_error ran]
      rfl
    rw [answered] at names
    exact names.elim
  · obtain ⟨given, stored⟩ := triggerIngestion_returns ran
    have answered : (serve env s ⟨tenantId, .triggerIngestion body jobId⟩).1 =
        .ingestionQueued response := by
      unfold serve
      dsimp only [handle]
      rw [SessionM.runOn_bind_ok ran]
      rfl
    have committed : (serve env s ⟨tenantId, .triggerIngestion body jobId⟩).2.db = u.committed := by
      unfold serve
      rw [Service.db_enqueue]
      dsimp only [handle]
      rw [SessionM.runOn_bind_ok ran]
      rfl
    rw [answered] at names ⊢
    rw [committed]
    cases ref with
    | book id olWorkKey => exact names.elim
    | job id queryType queryValue limit =>
        have same : jobId = id := given.symm.trans names
        exact ⟨.job jobId body.queryType body.queryValue body.limit, same, given, _, stored, rfl,
          rfl, rfl, rfl, rfl⟩
    | readingList id emailMasked => exact names.elim

theorem namesStored_submitReadingList (submission : Submission) (draws : SubmitDraws)
    (answers : Nat → ReferenceAnswers) :
    NamesStored env s ⟨tenantId, .submitReadingList submission draws answers⟩ := by
  intro ref names
  let op : Operation := ⟨tenantId, .submitReadingList submission draws answers⟩
  rcases ran : (submit env.hashing tenantId submission draws answers).runOn (.opened s.db) with
    ⟨exc | response, u⟩
  · have answered : (serve env s op).1 = .serverError exc := by
      unfold serve
      dsimp only [op, handle]
      rw [SessionM.runOn_bind_error ran]
      rfl
    rw [answered] at names
    exact names.elim
  · have answered : (serve env s op).1 = .submitted response := by
      unfold serve
      dsimp only [op, handle]
      rw [SessionM.runOn_bind_ok ran]
      rfl
    obtain ⟨list, mem, id, tenant, _⟩ := stored_list (submits_of_served answered)
    rw [answered] at names ⊢
    cases ref with
    | book id olWorkKey => exact names.elim
    | job id queryType queryValue limit => exact names.elim
    | readingList given emailMasked =>
        have same : list.id = given := id.trans names
        exact ⟨.readingList list.id list.emailMasked, same, id.symm, list, mem, rfl, tenant, rfl⟩

/-- Nobody is answered by an attempt of the worker. -/
theorem serve_ingestWorks (position : Nat) (attempt : Attempt) :
    (serve env s ⟨tenantId, .ingestWorks position attempt⟩).1 = .attempted ∨
      ∃ exc, (serve env s ⟨tenantId, .ingestWorks position attempt⟩).1 = .serverError exc := by
  unfold serve
  dsimp only [handle]
  cases (s.enqueued tenantId)[position]? with
  | none => exact .inl rfl
  | some args =>
      dsimp only
      rcases ran : (ingestWorksAsync env.str args attempt).runOn (.opened s.db) with
        ⟨exc | ended, u⟩
      · rw [SessionM.runOn_bind_error ran]
        exact .inr ⟨exc, rfl⟩
      · rw [SessionM.runOn_bind_ok ran]
        exact .inl rfl

/-- Whatever a response names is a row of its tenant's. -/
theorem namesStored (op : Operation) : NamesStored env s op := by
  obtain ⟨tenantId, request⟩ := op
  cases request with
  | listBooks filters params => exact namesStored_listBooks filters params
  | getBook bookId => exact namesStored_getBook bookId
  | triggerIngestion body jobId => exact namesStored_triggerIngestion body jobId
  | listJobs params => exact namesStored_listJobs params
  | getJob jobId => exact namesStored_getJob jobId
  | listActivityLog params => exact namesStored_listActivityLog params
  | submitReadingList submission draws answers =>
      exact namesStored_submitReadingList submission draws answers
  | listReadingLists params => exact namesStored_listReadingLists params
  | getReadingList readingListId => exact namesStored_getReadingList readingListId
  | ingestWorks position attempt =>
      intro ref names
      rcases serve_ingestWorks position attempt with attempted | ⟨exc, raised⟩
      · rw [attempted] at names
        exact names.elim
      · rw [raised] at names
        exact names.elim

end Open

/-! ### Whole histories -/

/-- After every history, whatever a response names is a row that its tenant can open in every
later state, as what it is, and that no other tenant can open. -/
theorem references_resolve {before : List Operation} {op : Operation}
    (names : (serve env (final (serve env) .empty before) op).1.Names ref) :
    ∃ row : Reference, row.SameId ref ∧
      (serve env (final (serve env) .empty before) op).1.Names row ∧
      ∀ later, let s := final (serve env) .empty (before ++ op :: later)
        (serve env s ⟨op.tenantId, row.request⟩).1.Names row ∧
          ∀ other, op.tenantId ≠ other →
            (serve env s ⟨other, row.request⟩).1 = .notFound row.missing := by
  obtain ⟨row, same, named, stored⟩ := namesStored op ref names
  refine ⟨row, same, named, ?_⟩
  intro later
  have stays : row.StoredFor op.tenantId (final (serve env) .empty (before ++ op :: later)).db := by
    rw [final, List.foldl_append, List.foldl_cons]
    exact stored.final
  exact ⟨stays.opens, fun other foreign => stays.closed foreign⟩

/-- An ingestion of ten works of one author. -/
def tenWorks : IngestionBody where
  queryType := .author
  queryValue := "Le Guin"
  limit := 10
  value_length := by simp
  limit_range := by simp

/-- Bob submits a list; a job is queued, and an attempt of the worker stores three books. -/
def busyMorning : List Operation :=
  [asks "bob@example.com" unreachable 7, ⟨1, .triggerIngestion tenWorks 5⟩,
    ⟨1, .ingestWorks 0 (attemptFinding (batchWith (plainWork "OL2W" (some "Two") 20)) 30)⟩]

def Response.showsBook (id : Uuid) (olWorkKey : String) : Response → Bool
  | .book detail => detail.id = id && detail.olWorkKey = olWorkKey
  | _ => false

theorem Response.names_of_showsBook {id : Uuid} {olWorkKey : String} {response : Response}
    (shows : response.showsBook id olWorkKey) : response.Names (.book id olWorkKey) := by
  cases response with
  | book detail => simpa [showsBook, Names] using shows
  | _ => cases shows

/-- The second of the books opens for the tenant, and not for another, whatever happens. -/
theorem stored_book_resolves : ∃ row : Reference, row.SameId (.book 20 "OL2W") ∧
    (serve caseFolding (final (serve caseFolding) .empty busyMorning) ⟨1, .getBook 20⟩).1.Names
      row ∧
    ∀ later : List Operation,
      let s := final (serve caseFolding) .empty (busyMorning ++ ⟨1, .getBook 20⟩ :: later)
      (serve caseFolding s ⟨1, row.request⟩).1.Names row ∧
        ∀ other, 1 ≠ other →
          (serve caseFolding s ⟨other, row.request⟩).1 = .notFound row.missing := by
  have shows : (serve caseFolding (final (serve caseFolding) .empty busyMorning)
      ⟨1, .getBook 20⟩).1.showsBook 20 "OL2W" = true := by decide +kernel
  -- from here on nothing is to be computed
  generalize busyMorning = before at shows ⊢
  exact references_resolve (Response.names_of_showsBook shows)

end TenantLibrary.Api
