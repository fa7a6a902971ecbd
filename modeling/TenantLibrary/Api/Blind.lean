import TenantLibrary.Api.Endpoints
import TenantLibrary.Lib.Share

/-!
Requests under a view of the reading lists.

A view is blind when it changes nothing of a database but what no answer shows of a reading
list, and asks nothing of the statements on other tables but that an updated job stays the job
it was. Every request but a submission does under such a view what it does on the whole
(`Blind.unaware_handle`).
-/

namespace TenantLibrary.Api

open TenantLibrary.Lib TenantLibrary.Lib.Share TenantLibrary.OpenLibrary TenantLibrary.Store
  TenantLibrary.Ingestion TenantLibrary.ReadingLists TenantLibrary.Books

variable {α β : Type} {refuse : Refusal} {tenantId : Uuid} {share : Share Database Write}

/-! ### Views -/

/-- The columns of a job that are set once. -/
structure SameJob (a b : IngestionJob) : Prop where
  id : a.id = b.id
  tenantId : a.tenantId = b.tenantId
  queryType : a.queryType = b.queryType
  queryValue : a.queryValue = b.queryValue
  limit : a.limit = b.limit

/-- The columns of a reading list that are asked for or shown. -/
structure SameList (a b : ReadingList) : Prop where
  id : a.id = b.id
  tenantId : a.tenantId = b.tenantId
  patronNameMasked : a.patronNameMasked = b.patronNameMasked
  emailMasked : a.emailMasked = b.emailMasked

/-- The statements that change neither what a job is nor a reading list. -/
def Free : Write → Prop
  | .updateJob _ => False
  | .insertReadingList _ => False
  | .updateReadingList _ => False
  | _ => True

structure Blind (share : Share Database Write) : Prop where
  sends : ∀ refuse, share.Sends (Write.send refuse) (Write.send refuse)
  catalog : ∀ db, (share.view db).catalog = db.catalog
  jobs : ∀ db, (share.view db).jobs = db.jobs
  logs : ∀ db, (share.view db).logs = db.logs
  items : ∀ db, (share.view db).readingListItems = db.readingListItems
  lists : ∃ change : ReadingList → ReadingList, (∀ list, SameList (change list) list) ∧
    ∀ db, (share.view db).readingLists.rows = db.readingLists.rows.map change
  free : ∀ write, Free write → share.Owns write ∧ share.translate write = write
  updates : ∀ db job job', share.Inv db → job ∈ db.jobs.rows → SameJob job' job →
    share.Owns (.updateJob job') ∧ share.translate (.updateJob job') = .updateJob job'

/-- The program does under the view what it does without it. -/
abbrev Unaware (share : Share Database Write) (program : IngestM α) : Prop :=
  share.Local program fun _ => True

namespace Unaware

theorem pure (a : α) : Unaware share (Pure.pure a) := Local.pure trivial

theorem throw (e : SessionError DbError Failure) :
    Unaware share (MonadExcept.throw e : IngestM α) :=
  Local.throw e

theorem bind {program : IngestM α} {next : α → IngestM β} (first : Unaware share program)
    (then_ : ∀ a, Unaware share (next a)) : Unaware share (program >>= next) :=
  Local.bind first fun a _ => then_ a

/-- The same for a condition that chooses the first program. -/
theorem ite_bind {condition : Prop} [Decidable condition] {program other : IngestM α}
    {next : α → IngestM β} (first : Unaware share (if condition then program else other))
    (then_ : ∀ a, Unaware share (next a)) :
    Unaware share (if condition then program >>= next else other >>= next) :=
  Local.ite_bind first fun a _ => then_ a

theorem tryCatch {program : IngestM α} {handler : SessionError DbError Failure → IngestM α}
    (tried : Unaware share program) (handled : ∀ e, Unaware share (handler e)) :
    Unaware share (MonadExcept.tryCatch program handler) :=
  Local.tryCatch tried handled

theorem forM {body : α → IngestM Unit} {items : List α} (each : ∀ a, Unaware share (body a)) :
    Unaware share (items.forM body) :=
  Local.forM fun a _ => each a

end Unaware

theorem unaware_scalarOneOrNone (rows : List α) : Unaware share (scalarOneOrNone rows) := by
  match rows with
  | [] => exact .pure none
  | [row] => exact .pure (some row)
  | _ :: _ :: _ => exact .throw _

theorem unaware_liftAnswer (answer : Except Failure α) : Unaware share (liftAnswer answer) := by
  cases answer with
  | ok a => exact .pure a
  | error failure => exact .throw _

namespace Blind

variable (blind : Blind share)
include blind

/-! ### Statements and queries -/

theorem add {write : Write} (free : Free write) : Unaware share (SessionM.add write) :=
  Local.add (blind.free write free).1 (blind.free write free).2

theorem flush : Unaware share (SessionM.flush (Write.send refuse)) :=
  Carries.flush (blind.sends refuse)

theorem commit : Unaware share (SessionM.commit (Write.send refuse)) :=
  Carries.commit (blind.sends refuse)

theorem select {query : Database → α} (seen : ∀ db, query (share.view db) = query db) :
    Unaware share (SessionM.select (Write.send refuse) query) :=
  Carries.weaken (Carries.select (blind.sends refuse) fun db _ => seen db) fun _ _ => trivial

/-- A query of the catalog. -/
theorem catalog_select (query : Catalog → α) :
    Unaware share (SessionM.select (Write.send refuse) fun db => query db.catalog) :=
  blind.select fun db => congrArg query (blind.catalog db)

/-- A query that is refused for what it binds, or not. -/
theorem selectBinding {parameters : List Parameter} {query : Database → α}
    (seen : ∀ db, query (share.view db) = query db) :
    Unaware share (Store.selectBinding parameters query) := by
  apply (blind.select seen).bind
  intro result
  split
  · exact .pure _
  · exact .throw _

theorem catalog_binding (parameters : List Parameter) (query : Catalog → α) :
    Unaware share (Store.selectBinding parameters fun db => query db.catalog) :=
  blind.selectBinding fun db => congrArg query (blind.catalog db)

/-- A query of the catalog whose result is used as one row. -/
theorem catalog_row (query : Catalog → List α) : Unaware share (do
    let rows ← SessionM.select (Write.send refuse) fun db => query db.catalog
    scalarOneOrNone rows) :=
  (blind.catalog_select query).bind unaware_scalarOneOrNone

/-! ### Ingestion -/

theorem unaware_upsertBook {record : WorkRecord} {newId : Uuid} :
    Unaware share (upsertBook refuse tenantId record newId) := by
  apply Unaware.bind (blind.catalog_select fun c => c.books.rows.filter _)
  intro rows
  apply (unaware_scalarOneOrNone rows).bind
  intro found
  cases found with
  | none => exact Unaware.bind (blind.add trivial) fun _ => blind.flush.bind fun _ => .pure _
  | some book =>
      dsimp only
      split
      · exact Unaware.bind (blind.add trivial) fun _ => .pure _
      · exact .pure _

theorem unaware_upsertAuthor {olAuthorKey : String} {name : Option String} {newId : Uuid} :
    Unaware share (upsertAuthor refuse tenantId olAuthorKey name newId) := by
  apply Unaware.bind (blind.catalog_select fun c => c.authors.rows.filter _)
  intro rows
  apply (unaware_scalarOneOrNone rows).bind
  intro found
  cases found with
  | none => exact Unaware.bind (blind.add trivial) fun _ => blind.flush.bind fun _ => .pure _
  | some author => exact .pure _

theorem unaware_linkAuthor {bookId authorId : Uuid} :
    Unaware share (linkAuthor refuse bookId authorId) := by
  apply Unaware.bind (blind.catalog_select fun c => c.bookAuthors.rows.filter _)
  intro rows
  apply (unaware_scalarOneOrNone rows).bind
  intro found
  cases found with
  | none => exact blind.add trivial
  | some link => exact .pure _

theorem unaware_addSubject {bookId : Uuid} {subject : String} :
    Unaware share (addSubject refuse bookId subject) := by
  apply Unaware.bind (blind.catalog_select fun c => c.bookSubjects.rows.filter _)
  intro rows
  apply (unaware_scalarOneOrNone rows).bind
  intro found
  cases found with
  | none => exact blind.add trivial
  | some subject => exact .pure _

theorem unaware_enrichAndStore {work : WorkInput} :
    Unaware share (enrichAndStore tenantId work) := by
  refine (unaware_liftAnswer _).bind fun record => Unaware.bind ?_ fun _ => blind.flush
  apply blind.unaware_upsertBook.bind
  intro bookId
  refine Unaware.bind (.forM fun call => ?_) fun _ => .forM fun subject => blind.unaware_addSubject
  exact blind.unaware_upsertAuthor.bind fun authorId => blind.unaware_linkAuthor

theorem unaware_storeAll {works : List WorkInput} {stored failed : Nat} :
    Unaware share (storeAll tenantId works stored failed) := by
  induction works generalizing stored failed with
  | nil => exact .pure _
  | cons work rest ih =>
      have tried : Unaware share (do enrichAndStore tenantId work; return true : IngestM Bool) :=
        blind.unaware_enrichAndStore.bind fun _ => .pure true
      apply (tried.tryCatch fun _ => .pure false).bind
      intro succeeded
      cases succeeded with
      | true => exact ih
      | false => exact ih

theorem unaware_ingest {str : SessionError DbError Failure → String} {search : Search}
    {request : IngestRequest} : Unaware share (ingest str search request) := by
  refine Unaware.bind (blind.add trivial) fun _ => blind.flush.bind fun _ => ?_
  refine Unaware.bind (.tryCatch ?_ fun exc => ?_) fun log => ?_
  · refine (unaware_liftAnswer _).bind fun works => Unaware.bind (blind.add trivial) fun _ => ?_
    apply blind.unaware_storeAll.bind
    intro counts
    exact Unaware.bind (blind.add trivial) fun _ => .pure _
  · exact Unaware.bind (blind.add trivial) fun _ => .pure _
  · exact blind.commit.bind fun _ => .pure log

/-- The job that is loaded is one of the table. -/
theorem local_loadJob {jobId : Uuid} :
    share.Local (loadJob jobId) fun job => ∃ db, share.Inv db ∧ job ∈ db.jobs.rows := by
  have seen : ∀ db, share.Inv db → jobRow jobId (share.view db) = id (jobRow jobId db) :=
    fun db _ => jobRow_congr (blind.jobs db) jobId
  apply Carries.bind (Carries.select (blind.sends _) seen)
  rintro rows ⟨db, sound, found⟩
  match rows with
  | [] => exact Carries.throw _
  | [job] =>
      have mem : job ∈ jobRow jobId db := found ▸ List.mem_singleton_self job
      exact Carries.pure rfl ⟨db, sound, (List.mem_filter.mp mem).1⟩
  | _ :: _ :: _ => exact Carries.throw _

/-- A job that was loaded is written back. -/
theorem unaware_saveJob {jobId : Uuid} {change : IngestionJob → IngestionJob}
    (same : ∀ job, SameJob (change job) job) : Unaware share (do
      let job ← loadJob jobId
      SessionM.add (.updateJob (change job))
      SessionM.commit (Write.send refuse)) := by
  apply Local.bind blind.local_loadJob
  rintro job ⟨db, sound, mem⟩
  obtain ⟨owned, stays⟩ := blind.updates db job _ sound mem (same job)
  exact Unaware.bind (Local.add owned stays) fun _ => blind.commit

theorem unaware_ingestWorksAsync {str : SessionError DbError Failure → String} {args : TaskArgs}
    {attempt : Attempt} : Unaware share (ingestWorksAsync str args attempt) := by
  refine Unaware.tryCatch ?_ fun exc => ?_
  · apply Local.bind blind.local_loadJob
    rintro job ⟨db, sound, mem⟩
    obtain ⟨owned, stays⟩ := blind.updates db job
      { job with status := .running, celeryTaskId := some attempt.celeryTaskId } sound mem
      ⟨rfl, rfl, rfl, rfl, rfl⟩
    refine Unaware.bind (Local.add owned stays) fun _ => blind.commit.bind fun _ => ?_
    exact blind.unaware_ingest.bind fun log =>
      blind.unaware_saveJob fun job => ⟨rfl, rfl, rfl, rfl, rfl⟩
  · refine Unaware.bind (.tryCatch ?_ fun _ => .pure ()) fun _ => .throw exc
    exact blind.unaware_saveJob fun job => ⟨rfl, rfl, rfl, rfl, rfl⟩

/-! ### References -/

theorem unaware_resolveByKey {workKey isbn : Option String} {answers : ReferenceAnswers} :
    Unaware share (resolveByKey tenantId workKey isbn answers) := by
  refine Unaware.ite_bind ?_ fun found => ?_
  · split
    · exact Unaware.bind (blind.catalog_binding _ fun c => c.books.rows.filter _)
        unaware_scalarOneOrNone
    · exact .pure none
  · cases found with
    | some book => exact .pure _
    | none =>
        dsimp only
        split
        · exact .pure _
        · exact .throw _
        · exact (unaware_liftAnswer _).bind fun _ => (unaware_liftAnswer _).bind fun _ => .pure _

theorem unaware_resolveBook {ref : BookReference} {answers : ReferenceAnswers} :
    Unaware share (resolveBook tenantId ref answers) := by
  have byKey : ∀ workKey : Option String, Unaware share
      (if truthy workKey then resolveByKey tenantId workKey ref.isbn answers
        else return (none, some ⟨none, ref.isbn, "ISBN not found on Open Library"⟩)) := by
    intro workKey
    split
    · exact blind.unaware_resolveByKey
    · exact .pure _
  unfold resolveBook
  split
  · exact blind.unaware_resolveByKey
  · refine Unaware.bind (Unaware.bind (blind.catalog_binding _ fun c => c.books.rows.filter _)
      unaware_scalarOneOrNone) fun found => ?_
    cases found with
    | some book => exact .pure _
    | none =>
        dsimp only
        split
        · exact blind.unaware_resolveByKey
        · split
          · exact byKey _
          · exact .throw _
          · exact byKey _

theorem unaware_storeReferences {readingListId : Uuid} {draws : SubmitDraws}
    {answers : Nat → ReferenceAnswers} {refs : List BookReference} {i : Nat} :
    Unaware share (storeReferences tenantId readingListId draws answers refs i) := by
  induction refs generalizing i with
  | nil => exact .pure _
  | cons ref rest ih =>
      refine Unaware.bind (blind.unaware_resolveBook.bind fun ⟨resolved, unresolved⟩ => ?_)
        fun resolution => ih.bind fun books => ?_
      · have stored : ∀ bookId : Option Uuid, Unaware share
            (do
              SessionM.add (.insertReadingListItem
                (itemFor (draws.itemId i) readingListId ref resolved bookId))
              return (resolved, unresolved) : IngestM Resolution) := by
          intro bookId
          exact Unaware.bind (blind.add trivial) fun _ => .pure _
        dsimp only
        split
        · exact Unaware.bind (Unaware.bind (blind.catalog_binding _ fun c => c.books.rows.filter _)
            unaware_scalarOneOrNone) fun found =>
            stored _
        · exact stored none
      · dsimp only
        split
        · exact .pure _
        · exact .pure _

/-- The end of a submission, once its list is there. -/
theorem unaware_storeAndAnswer {readingListId : Uuid} {isUpdate : Bool}
    {nameMasked emailMasked : String} {books : List BookReference} {draws : SubmitDraws}
    {answers : Nat → ReferenceAnswers} :
    Unaware share (storeAndAnswer tenantId readingListId isUpdate nameMasked emailMasked books draws
      answers) :=
  blind.unaware_storeReferences.bind fun _ => blind.commit.bind fun _ => .pure _

/-! ### Listings -/

/-- A listing of rows that the view changes one by one without showing it. -/
theorem unaware_listNewestFirst {γ : Type} {params : PageParams} {rows : Database → List α}
    {out : Database → α → γ} (change : α → α)
    (changed : ∀ db, rows (share.view db) = (rows db).map change)
    (shown : ∀ db a, out (share.view db) (change a) = out db a) :
    Unaware share (listNewestFirst params rows out) := by
  refine (blind.select fun db => ?_).bind fun total => ?_
  · rw [changed, List.length_map]
  · refine (blind.selectBinding fun db => ?_).bind fun items => .pure _
    rw [changed, ← List.map_reverse]
    simp only [PageParams.slice, ← List.map_drop, ← List.map_take, List.map_map]
    exact List.map_congr_left fun a _ => shown db a

/-- The tenant's lists with some property of what the view keeps. -/
theorem readingLists_view (condition : ReadingList → Bool)
    (kept : ∀ a b, SameList a b → condition a = condition b) : ∃ change : ReadingList → ReadingList,
      (∀ db, (share.view db).readingLists.rows.filter condition =
        (db.readingLists.rows.filter condition).map change) ∧
      ∀ db list, readingListOut (share.view db) (change list) = readingListOut db list := by
  obtain ⟨change, same, rows⟩ := blind.lists
  refine ⟨change, ?_, ?_⟩
  · intro db
    rw [rows, List.filter_map]
    congr 1
    exact List.filter_congr fun list _ => kept _ _ (same list)
  · intro db list
    obtain ⟨id, _, patronNameMasked, emailMasked⟩ := same list
    simp only [readingListOut, blind.items, id, patronNameMasked, emailMasked]

theorem unaware_listReadingLists {params : PageParams} :
    Unaware share (listReadingLists tenantId params) := by
  obtain ⟨change, changed, shown⟩ := blind.readingLists_view (fun l => l.tenantId = tenantId)
    fun a b same => by rw [same.tenantId]
  exact blind.unaware_listNewestFirst change changed shown

theorem unaware_getReadingList {readingListId : Uuid} :
    Unaware share (getReadingList tenantId readingListId) := by
  obtain ⟨change, changed, shown⟩ := blind.readingLists_view
    (fun l => l.tenantId = tenantId && l.id = readingListId)
    fun a b same => by rw [same.tenantId, same.id]
  refine Unaware.bind (blind.select fun db => ?_) unaware_scalarOneOrNone
  rw [changed, List.map_map]
  exact List.map_congr_left fun list _ => shown db list

/-! ### Requests -/

end Blind

def Request.submitted : Request → Option Submission
  | .submitReadingList submission _ _ => some submission
  | _ => none

/-- Every request but a submission does the same under the view. -/
theorem Blind.unaware_handle (blind : Blind share) {env : Environment} {tasks : List TaskArgs}
    {request : Request} (other : request.submitted = none) :
    Unaware share (handle env tenantId tasks request) := by
  -- the response is made from what the service returns
  have responds : ∀ {γ : Type} {program : IngestM γ} {respond : γ → Response},
      Unaware share program → Unaware share (do return respond (← program)) :=
    fun served => served.bind fun _ => .pure _
  cases request with
  | listBooks filters params =>
      refine responds ?_
      apply Unaware.bind (blind.catalog_binding _ fun c => (baseRows _ _ _ c).length)
      intro _
      exact Unaware.bind (blind.catalog_binding _ fun c => pageOfBooks _ _ _ _ c) fun _ => .pure _
  | getBook bookId =>
      exact responds (blind.catalog_row fun c => (c.books.rows.filter _).map (bookDetail c))
  | triggerIngestion body jobId =>
      refine responds ?_
      exact Unaware.bind (blind.add trivial) fun _ => blind.commit.bind fun _ => .pure _
  | listJobs params =>
      refine responds (blind.unaware_listNewestFirst id (fun db => ?_) fun _ _ => rfl)
      rw [List.map_id, tenantJobs, blind.jobs, tenantJobs]
  | getJob jobId =>
      refine responds (Unaware.bind (blind.select fun db => ?_) unaware_scalarOneOrNone)
      rw [blind.jobs]
  | listActivityLog params =>
      refine responds (blind.unaware_listNewestFirst id (fun db => ?_) fun _ _ => rfl)
      rw [List.map_id, tenantLogs, blind.logs, tenantLogs]
  | submitReadingList submission draws answers => cases other
  | listReadingLists params => exact responds blind.unaware_listReadingLists
  | getReadingList readingListId => exact responds blind.unaware_getReadingList
  | ingestWorks position attempt =>
      unfold handle
      dsimp only
      split
      · exact .pure _
      · exact responds blind.unaware_ingestWorksAsync

end TenantLibrary.Api
