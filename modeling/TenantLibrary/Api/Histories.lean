import TenantLibrary.Api.Endpoints
import TenantLibrary.Lib.Invariant
import TenantLibrary.Lib.Unwinding
import TenantLibrary.ReadingLists.Submitting

/-!
What holds after every history of requests.

An invariant that every statement keeps is kept by every request and every attempt of the
worker, however it ends (`keeps_handle`), and so holds after every history
(`invariant_final`). The foreign keys are such an invariant (`Linked`).
-/

namespace TenantLibrary.Api

open TenantLibrary.Lib TenantLibrary.OpenLibrary TenantLibrary.Store TenantLibrary.Ingestion
  TenantLibrary.ReadingLists TenantLibrary.Books

variable {α : Type} {Inv : Database → Prop} {refuse : Refusal} {tenantId : Uuid}

/-- Every statement keeps the invariant, whatever the database refuses. -/
def KeptByWrites (Inv : Database → Prop) : Prop := ∀ refuse, KeptBy (Write.send refuse) Inv

/-! ### Programs -/

theorem keeps_scalarOneOrNone (rows : List α) : Keeps Inv (scalarOneOrNone rows) := by
  match rows with
  | [] => exact Keeps.pure none
  | [row] => exact Keeps.pure (some row)
  | _ :: _ :: _ => exact Keeps.throw _

theorem keeps_liftAnswer (answer : Except Failure α) : Keeps Inv (liftAnswer answer) := by
  cases answer with
  | ok a => exact Keeps.pure a
  | error failure => exact Keeps.throw _

/-- A query whose result is used as one row. -/
theorem keeps_row (kept : KeptByWrites Inv) (query : Database → List α) :
    Keeps Inv (do
      let rows ← SessionM.select (Write.send refuse) query
      scalarOneOrNone rows : IngestM (Option α)) :=
  (Keeps.select (kept refuse) query).bind keeps_scalarOneOrNone

theorem keeps_selectBinding (kept : KeptByWrites Inv) {parameters : List Parameter}
    {query : Database → α} : Keeps Inv (selectBinding parameters query : IngestM α) := by
  apply (Keeps.select (kept _) query).bind
  intro result
  split
  · exact .pure result
  · exact .throw _

section Store

variable (kept : KeptByWrites Inv)
include kept

theorem keeps_upsertBook {record : WorkRecord} {newId : Uuid} :
    Keeps Inv (upsertBook refuse tenantId record newId) := by
  apply (Keeps.select (kept refuse) _).bind
  intro rows
  apply (keeps_scalarOneOrNone rows).bind
  intro found
  cases found with
  | none => exact (Keeps.add _).bind fun _ => (Keeps.flush (kept refuse)).bind fun _ => .pure _
  | some book =>
      dsimp only
      split
      · exact (Keeps.add _).bind fun _ => .pure _
      · exact .pure _

theorem keeps_upsertAuthor {olAuthorKey : String} {name : Option String} {newId : Uuid} :
    Keeps Inv (upsertAuthor refuse tenantId olAuthorKey name newId) := by
  apply (Keeps.select (kept refuse) _).bind
  intro rows
  apply (keeps_scalarOneOrNone rows).bind
  intro found
  cases found with
  | none => exact (Keeps.add _).bind fun _ => (Keeps.flush (kept refuse)).bind fun _ => .pure _
  | some author => exact .pure _

theorem keeps_linkAuthor {bookId authorId : Uuid} :
    Keeps Inv (linkAuthor refuse bookId authorId) := by
  apply (Keeps.select (kept refuse) _).bind
  intro rows
  apply (keeps_scalarOneOrNone rows).bind
  intro found
  cases found with
  | none => exact Keeps.add _
  | some link => exact .pure _

theorem keeps_addSubject {bookId : Uuid} {subject : String} :
    Keeps Inv (addSubject refuse bookId subject) := by
  apply (Keeps.select (kept refuse) _).bind
  intro rows
  apply (keeps_scalarOneOrNone rows).bind
  intro found
  cases found with
  | none => exact Keeps.add _
  | some subject => exact .pure _

theorem keeps_storeRecord {record : WorkRecord} {draws : Draws} :
    Keeps Inv (storeRecord refuse tenantId record draws) := by
  apply (keeps_upsertBook kept).bind
  intro bookId
  refine (Keeps.forM fun call _ => ?_).bind fun _ => Keeps.forM fun subject _ => ?_
  · exact (keeps_upsertAuthor kept).bind fun authorId => keeps_linkAuthor kept
  · exact keeps_addSubject kept

theorem keeps_enrichAndStore {work : WorkInput} : Keeps Inv (enrichAndStore tenantId work) :=
  (keeps_liftAnswer _).bind fun _ =>
    (keeps_storeRecord kept).bind fun _ => Keeps.flush (kept work.refuse)

theorem keeps_storeAll {works : List WorkInput} {stored failed : Nat} :
    Keeps Inv (storeAll tenantId works stored failed) := by
  induction works generalizing stored failed with
  | nil => exact .pure _
  | cons work rest ih =>
      have tried : Keeps Inv (do enrichAndStore tenantId work; return true : IngestM Bool) :=
        (keeps_enrichAndStore kept).bind fun _ => .pure true
      apply (tried.tryCatch fun _ => .pure false).bind
      intro succeeded
      cases succeeded with
      | true => exact ih
      | false => exact ih

theorem keeps_ingest {str : SessionError DbError Failure → String} {search : Search}
    {request : IngestRequest} : Keeps Inv (ingest str search request) := by
  refine (Keeps.add _).bind fun _ => (Keeps.flush (kept _)).bind fun _ => ?_
  refine Keeps.bind (Keeps.tryCatch ?_ fun exc => ?_) fun log => ?_
  · refine (keeps_liftAnswer _).bind fun works => (Keeps.add _).bind fun _ => ?_
    exact (keeps_storeAll kept).bind fun counts => (Keeps.add _).bind fun _ => .pure _
  · exact (Keeps.add _).bind fun _ => .pure _
  · exact (Keeps.commit (kept _)).bind fun _ => .pure log

theorem keeps_loadJob {jobId : Uuid} : Keeps Inv (loadJob jobId) := by
  apply (Keeps.select (kept _) _).bind
  intro rows
  match rows with
  | [] => exact Keeps.throw _
  | [job] => exact .pure job
  | _ :: _ :: _ => exact Keeps.throw _

theorem keeps_saveJob {job : IngestionJob} :
    Keeps Inv
      (do SessionM.add (.updateJob job); SessionM.commit (Write.send refuse) : IngestM Unit) :=
  (Keeps.add _).bind fun _ => Keeps.commit (kept refuse)

theorem keeps_ingestWorksAsync {str : SessionError DbError Failure → String} {args : TaskArgs}
    {attempt : Attempt} : Keeps Inv (ingestWorksAsync str args attempt) := by
  refine Keeps.tryCatch ?_ fun exc => ?_
  · refine (keeps_loadJob kept).bind fun job => (Keeps.add _).bind fun _ => ?_
    refine (Keeps.commit (kept _)).bind fun _ => (keeps_ingest kept).bind fun log => ?_
    exact (keeps_loadJob kept).bind fun job => keeps_saveJob kept
  · refine (Keeps.tryCatch ?_ fun _ => .pure ()).bind fun _ => Keeps.throw exc
    exact (keeps_loadJob kept).bind fun job => keeps_saveJob kept

/-! ### Reading lists -/

theorem keeps_findByWorkKey {olWorkKey : String} :
    Keeps Inv (findByWorkKey tenantId olWorkKey) :=
  (keeps_selectBinding kept).bind keeps_scalarOneOrNone

theorem keeps_resolveByKey {workKey isbn : Option String} {answers : ReferenceAnswers} :
    Keeps Inv (resolveByKey tenantId workKey isbn answers) := by
  apply Keeps.ite_bind (keeps_findByWorkKey kept) (.pure none)
  intro found
  cases found with
  | some book => exact .pure _
  | none =>
      dsimp only
      split
      · exact .pure _
      · exact Keeps.throw _
      · exact (keeps_liftAnswer _).bind fun _ => (keeps_liftAnswer _).bind fun _ => .pure _

theorem keeps_resolveBook {ref : BookReference} {answers : ReferenceAnswers} :
    Keeps Inv (resolveBook tenantId ref answers) := by
  have byKey (workKey : Option String) : Keeps Inv
      (if truthy workKey then resolveByKey tenantId workKey ref.isbn answers
        else return (none, some ⟨none, ref.isbn, "ISBN not found on Open Library"⟩)) := by
    split
    · exact keeps_resolveByKey kept
    · exact .pure _
  unfold resolveBook
  split
  · exact keeps_resolveByKey kept
  · apply Keeps.bind ((keeps_selectBinding kept).bind keeps_scalarOneOrNone)
    intro found
    cases found with
    | some book => exact .pure _
    | none =>
        dsimp only
        split
        · exact keeps_resolveByKey kept
        · split
          · exact byKey _
          · exact Keeps.throw _
          · exact byKey _

theorem keeps_storeReference {readingListId itemId : Uuid} {ref : BookReference}
    {answers : ReferenceAnswers} :
    Keeps Inv (storeReference tenantId readingListId itemId ref answers) := by
  apply (keeps_resolveBook kept).bind
  rintro ⟨resolved, unresolved⟩
  have stored (bookId : Option Uuid) : Keeps Inv
      (do
        SessionM.add (.insertReadingListItem (itemFor itemId readingListId ref resolved bookId))
        return (resolved, unresolved) : IngestM Resolution) :=
    (Keeps.add _).bind fun _ => .pure _
  dsimp only
  split
  · exact (keeps_findByWorkKey kept).bind fun found => stored _
  · exact stored none

theorem keeps_storeReferences {readingListId : Uuid} {draws : SubmitDraws}
    {answers : Nat → ReferenceAnswers} {refs : List BookReference} {i : Nat} :
    Keeps Inv (storeReferences tenantId readingListId draws answers refs i) := by
  induction refs generalizing i with
  | nil => exact .pure _
  | cons ref rest ih =>
      refine (keeps_storeReference kept).bind fun resolution => ih.bind fun books => ?_
      dsimp only
      split
      · exact .pure _
      · exact .pure _

theorem keeps_submit {hashing : Hashing} {submission : Submission} {draws : SubmitDraws}
    {answers : Nat → ReferenceAnswers} :
    Keeps Inv (submit hashing tenantId submission draws answers) := by
  apply (keeps_liftAnswer _).bind
  intro emailMasked
  apply (Keeps.select (kept _) _).bind
  intro rows
  apply (keeps_scalarOneOrNone rows).bind
  intro existing
  have stored (readingListId : Uuid) : Keeps Inv (storeAndAnswer tenantId readingListId
      existing.isSome (maskName submission.patronName) emailMasked submission.books draws answers) :=
    (keeps_storeReferences kept).bind fun books => (Keeps.commit (kept _)).bind fun _ => .pure _
  cases existing with
  | none =>
      exact (Keeps.add _).bind fun _ => (Keeps.flush (kept _)).bind fun _ => stored _
  | some list =>
      have cleared : Keeps Inv
          (do
            SessionM.add (.deleteReadingListItems list.id)
            SessionM.flush (Write.send Refusal.never)
            storeAndAnswer tenantId list.id true (maskName submission.patronName) emailMasked
              submission.books draws answers : IngestM ReadingListResponse) :=
        (Keeps.add _).bind fun _ => (Keeps.flush (kept _)).bind fun _ => stored list.id
      dsimp only
      split
      · exact (Keeps.add _).bind fun _ => cleared
      · exact cleared

/-! ### Requests -/

theorem keeps_listNewestFirst {β : Type} {params : PageParams} {rows : Database → List α}
    {out : Database → α → β} : Keeps Inv (listNewestFirst params rows out) :=
  (Keeps.select (kept _) _).bind fun _ => (keeps_selectBinding kept).bind fun _ => .pure _

/-- Whatever a request does, it keeps what every statement keeps. -/
theorem keeps_handle {env : Environment} {tasks : List TaskArgs} {request : Request} :
    Keeps Inv (handle env tenantId tasks request) := by
  -- the response is made from what the service returns
  have responds {β : Type} {program : IngestM β} {respond : β → Response}
      (served : Keeps Inv program) : Keeps Inv (do return respond (← program)) :=
    served.bind fun _ => .pure _
  cases request with
  | listBooks filters params =>
      exact responds ((keeps_selectBinding kept).bind fun _ =>
        (keeps_selectBinding kept).bind fun _ => .pure _)
  | getBook bookId => exact responds (keeps_row kept _)
  | triggerIngestion body jobId =>
      exact responds ((Keeps.add _).bind fun _ => (Keeps.commit (kept _)).bind fun _ => .pure _)
  | listJobs params => exact responds (keeps_listNewestFirst kept)
  | getJob jobId => exact responds (keeps_row kept _)
  | listActivityLog params => exact responds (keeps_listNewestFirst kept)
  | submitReadingList submission draws answers => exact responds (keeps_submit kept)
  | listReadingLists params => exact responds (keeps_listNewestFirst kept)
  | getReadingList readingListId => exact responds (keeps_row kept _)
  | ingestWorks position attempt =>
      unfold handle
      dsimp only
      split
      · exact .pure _
      · exact responds (keeps_ingestWorksAsync kept)

end Store

/-! ### Histories -/

/-- What every statement keeps holds after every history. -/
theorem invariant_final (kept : KeptByWrites Inv) (env : Environment) {start : Service}
    {ops : List Operation} (holds : Inv start.db) : Inv (final (serve env) start ops).db := by
  induction ops generalizing start with
  | nil => exact holds
  | cons op rest ih =>
      refine @ih (serve env start op).2 ?_
      unfold serve
      rw [Service.db_enqueue]
      exact (keeps_handle kept).run holds

/-! ### Foreign keys -/

section Linked

variable {c after : Catalog}

def bookIds (c : Catalog) : List Uuid := c.books.rows.map (·.id)

def authorIds (c : Catalog) : List Uuid := c.authors.rows.map (·.id)

/-- The rows of the catalog refer to rows that exist. -/
structure LinkedCatalog (c : Catalog) : Prop where
  links : ∀ l ∈ c.bookAuthors.rows, l.bookId ∈ bookIds c ∧ l.authorId ∈ authorIds c
  subjects : ∀ s ∈ c.bookSubjects.rows, s.bookId ∈ bookIds c

/-- Every row refers to rows that exist. -/
structure Linked (db : Database) : Prop where
  catalog : LinkedCatalog db.catalog
  items : ∀ item ∈ db.readingListItems.rows,
    item.readingListId ∈ db.readingLists.rows.map (·.id) ∧
      ∀ bookId, item.bookId = some bookId → bookId ∈ bookIds db.catalog

theorem linked_empty : Linked .empty := by
  refine ⟨⟨fun l mem => ?_, fun s mem => ?_⟩, fun item mem => ?_⟩
  · cases mem
  · cases mem
  · cases mem

theorem linkedCatalog_of_subset (linked : LinkedCatalog c) (books : bookIds c ⊆ bookIds after)
    (authors : authorIds c ⊆ authorIds after) (links : after.bookAuthors = c.bookAuthors)
    (subjects : after.bookSubjects = c.bookSubjects) : LinkedCatalog after where
  links l mem := by
    obtain ⟨book, author⟩ := linked.links l (links ▸ mem)
    exact ⟨books book, authors author⟩
  subjects s mem := books (linked.subjects s (subjects ▸ mem))

/-- A statement on the catalog keeps its rows linked and removes no book. -/
theorem linkedCatalog_of_run {write : CatalogWrite} (linked : LinkedCatalog c)
    (sent : write.run c = .ok after) : LinkedCatalog after ∧ bookIds c ⊆ bookIds after := by
  cases write with
  | insertBook id tenantId olWorkKey values =>
      obtain ⟨title, _, books, inserted, rfl⟩ := run_insertBook.mp sent
      have grown : bookIds c ⊆ bookIds { c with books } :=
        List.map_subset _ fun b mem => Table.mem_insert_of_mem inserted mem
      exact ⟨linkedCatalog_of_subset linked grown (fun _ mem => mem) rfl rfl, grown⟩
  | updateBook id values =>
      obtain ⟨title, _, rfl⟩ := run_updateBook.mp sent
      have same : bookIds { c with
          books := c.books.modify (Book.assign id values title) Book.clash_of_assign } =
          bookIds c := by
        simp [bookIds, Function.comp_def]
      have grown : bookIds c ⊆ _ := fun id mem => same.symm ▸ mem
      exact ⟨linkedCatalog_of_subset linked grown (fun _ mem => mem) rfl rfl, grown⟩
  | insertAuthor id tenantId olAuthorKey name =>
      obtain ⟨text, _, authors, inserted, rfl⟩ := run_insertAuthor.mp sent
      refine ⟨linkedCatalog_of_subset linked (fun _ mem => mem) ?_ rfl rfl, fun _ mem => mem⟩
      exact List.map_subset _ fun a mem => Table.mem_insert_of_mem inserted mem
  | insertBookAuthor bookId authorId =>
      obtain ⟨⟨b, book, rfl⟩, ⟨a, author, rfl⟩, bookAuthors, inserted, rfl⟩ :=
        run_insertBookAuthor.mp sent
      refine ⟨⟨fun l mem => ?_, linked.subjects⟩, fun _ mem => mem⟩
      rcases Table.mem_insert inserted mem with old | rfl
      · exact linked.links l old
      · exact ⟨List.mem_map_of_mem book, List.mem_map_of_mem author⟩
  | insertBookSubject bookId subject =>
      obtain ⟨⟨b, book, rfl⟩, bookSubjects, inserted, rfl⟩ := run_insertBookSubject.mp sent
      refine ⟨⟨linked.links, fun s mem => ?_⟩, fun _ mem => mem⟩
      rcases Table.mem_insert inserted mem with old | rfl
      · exact linked.subjects s old
      · exact List.mem_map_of_mem book

end Linked

/-- Every statement keeps the rows linked. -/
theorem linked_keptByWrites : KeptByWrites Linked := by
  intro refuse write db after linked sent
  cases write with
  | catalog write =>
      obtain ⟨catalog, ran, made⟩ := bind_eq_ok.mp sent
      obtain rfl := Except.ok.inj made
      obtain ⟨linkedNow, grown⟩ := linkedCatalog_of_run linked.catalog (send_eq_ok.mp ran).2
      exact ⟨linkedNow, fun item mem => ⟨(linked.items item mem).1, fun bookId points =>
        grown ((linked.items item mem).2 bookId points)⟩⟩
  | insertJob job =>
      obtain ⟨_, _, sent⟩ := bind_eq_ok.mp sent
      obtain ⟨jobs, _, made⟩ := bind_eq_ok.mp sent
      obtain rfl := Except.ok.inj made
      exact ⟨linked.catalog, linked.items⟩
  | updateJob job =>
      obtain rfl := Except.ok.inj sent
      exact ⟨linked.catalog, linked.items⟩
  | insertLog log =>
      obtain ⟨logs, _, made⟩ := bind_eq_ok.mp sent
      obtain rfl := Except.ok.inj made
      exact ⟨linked.catalog, linked.items⟩
  | updateLog log =>
      obtain rfl := Except.ok.inj sent
      exact ⟨linked.catalog, linked.items⟩
  | insertReadingList list =>
      obtain ⟨_, lists, inserted, rfl⟩ := insertReadingList_eq_ok.mp sent
      refine ⟨linked.catalog, fun item mem => ⟨?_, (linked.items item mem).2⟩⟩
      exact List.map_subset _ (fun l mem => Table.mem_insert_of_mem inserted mem)
        (linked.items item mem).1
  | updateReadingList list =>
      obtain ⟨_, rfl⟩ := updateReadingList_eq_ok.mp sent
      refine ⟨linked.catalog, fun item mem => ⟨?_, (linked.items item mem).2⟩⟩
      simpa [Function.comp_def] using (linked.items item mem).1
  | deleteReadingListItems readingListId =>
      obtain rfl := Except.ok.inj sent
      exact ⟨linked.catalog, fun item mem => linked.items item (List.mem_filter.mp mem).1⟩
  | insertReadingListItem item =>
      obtain ⟨_, refers, items, inserted, rfl⟩ := insertReadingListItem_eq_ok.mp sent
      refine ⟨linked.catalog, fun other mem => ?_⟩
      rcases Table.mem_insert inserted mem with old | rfl
      · exact linked.items other old
      · simp only [ReadingListItem.refersTo, Bool.and_eq_true, List.any_eq_true, Option.all_eq_true,
          decide_eq_true_eq] at refers
        obtain ⟨⟨l, list, same⟩, books⟩ := refers
        refine ⟨same ▸ List.mem_map_of_mem list, fun bookId points => ?_⟩
        obtain ⟨b, book, rfl⟩ := books bookId points
        exact List.mem_map_of_mem book

/-- Every statement leaves the texts of the catalog as their columns keep them. -/
theorem whole_keptByWrites : KeptByWrites fun db => db.catalog.Whole := by
  intro refuse write db after whole sent
  cases write with
  | catalog write =>
      obtain ⟨catalog, ran, made⟩ := bind_eq_ok.mp sent
      obtain rfl := Except.ok.inj made
      exact Catalog.Whole.send whole ran
  | insertJob job =>
      obtain ⟨_, _, sent⟩ := bind_eq_ok.mp sent
      obtain ⟨jobs, _, made⟩ := bind_eq_ok.mp sent
      obtain rfl := Except.ok.inj made
      exact whole
  | insertLog log =>
      obtain ⟨logs, _, made⟩ := bind_eq_ok.mp sent
      obtain rfl := Except.ok.inj made
      exact whole
  | insertReadingList list =>
      obtain ⟨_, lists, inserted, rfl⟩ := insertReadingList_eq_ok.mp sent
      exact whole
  | updateReadingList list =>
      obtain ⟨_, rfl⟩ := updateReadingList_eq_ok.mp sent
      exact whole
  | insertReadingListItem item =>
      obtain ⟨_, _, items, _, rfl⟩ := insertReadingListItem_eq_ok.mp sent
      exact whole
  | _ =>
      obtain rfl := Except.ok.inj sent
      exact whole

/-- The texts of the catalog are as their columns keep them after every history. -/
theorem whole_final (env : Environment) (ops : List Operation) :
    (final (serve env) .empty ops).db.catalog.Whole :=
  invariant_final whole_keptByWrites env Catalog.whole_empty

/-- The rows are linked after every history. -/
theorem linked_final (env : Environment) (ops : List Operation) :
    Linked (final (serve env) .empty ops).db :=
  invariant_final linked_keptByWrites env linked_empty

end TenantLibrary.Api
