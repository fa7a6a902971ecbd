import TenantLibrary.Api.Endpoints
import TenantLibrary.Store.Renaming

/-!
The service under other names.

A request that draws other identifiers, on a database whose identifiers are exchanged the
same way, is answered the same with the identifiers exchanged. No service compares an
identifier with anything but another identifier.
-/

namespace TenantLibrary.Tenancy

open TenantLibrary.Lib TenantLibrary.Lib.Share TenantLibrary.OpenLibrary TenantLibrary.Store
  TenantLibrary.Ingestion TenantLibrary.ReadingLists TenantLibrary.Books TenantLibrary.Api

variable (ρ : Equiv.Perm Uuid) {α α' β β' : Type} {f : α → α'} {g : β → β'}

/-! ### Rules -/

/-- The image does under other names what the program does. -/
def Renames (f : α → α') (program : IngestM α) (image : IngestM α') : Prop :=
  (renamed ρ).Carries f program image fun _ => True

namespace Renames

variable {ρ} {program : IngestM α} {image : IngestM α'} {refuse : Refusal}

theorem pure {a : α} {a' : α'} (same : a' = f a) : Renames ρ f (Pure.pure a) (Pure.pure a') :=
  Carries.pure same trivial

theorem bind {next : α → IngestM β} {nextImage : α' → IngestM β'} (first : Renames ρ f program image)
    (then_ : ∀ a, Renames ρ g (next a) (nextImage (f a))) :
    Renames ρ g (program >>= next) (image >>= nextImage) :=
  Carries.bind first fun a _ => then_ a

theorem andThen {first firstImage : IngestM Unit} {second : IngestM β} {secondImage : IngestM β'}
    (one : Renames ρ id first firstImage) (two : Renames ρ g second secondImage) :
    Renames ρ g (first >>= fun _ => second) (firstImage >>= fun _ => secondImage) :=
  one.bind fun _ => two

theorem ite {condition condition' : Prop} [Decidable condition] [Decidable condition']
    {other : IngestM α} {otherImage : IngestM α'} (same : condition' ↔ condition)
    (first : Renames ρ f program image) (second : Renames ρ f other otherImage) :
    Renames ρ f (if condition then program else other)
      (if condition' then image else otherImage) := by
  by_cases holds : condition
  · rw [if_pos holds, if_pos (same.mpr holds)]
    exact first
  · rw [if_neg holds, if_neg (mt same.mp holds)]
    exact second

theorem add (write : Write) :
    Renames ρ id (SessionM.add write) (SessionM.add (write.rename ρ)) :=
  Carries.add trivial

theorem flush :
    Renames ρ id (SessionM.flush (Write.send refuse))
      (SessionM.flush (Write.send (refuse.rename ρ))) :=
  Carries.flush (renames ρ refuse)

theorem commit :
    Renames ρ id (SessionM.commit (Write.send refuse))
      (SessionM.commit (Write.send (refuse.rename ρ))) :=
  Carries.commit (renames ρ refuse)

theorem select {query : Database → α} {queryImage : Database → α'}
    (seen : ∀ db, queryImage (db.rename ρ) = f (query db)) :
    Renames ρ f (SessionM.select (Write.send refuse) query)
      (SessionM.select (Write.send (refuse.rename ρ)) queryImage) :=
  Carries.weaken (Carries.select (renames ρ refuse) fun db _ => seen db) fun _ _ => trivial

/-- What a query binds has no identifier in it that the names change. -/
theorem selectBinding {parameters : List Parameter} {query : Database → α}
    {queryImage : Database → α'} (seen : ∀ db, queryImage (db.rename ρ) = f (query db)) :
    Renames ρ f (Store.selectBinding parameters query)
      (Store.selectBinding parameters queryImage) := by
  apply Renames.bind (f := f) (Renames.select seen)
  intro result
  split
  · exact Renames.pure rfl
  · exact Carries.throw _

end Renames

/-- A selection under other names. -/
theorem filter_rename (rename : α → α') {p : α → Bool} {q : α' → Bool}
    (same : ∀ a, q (rename a) = p a) (rows : List α) :
    (rows.map rename).filter q = (rows.filter p).map rename := by
  rw [List.filter_map]
  exact congrArg (List.map rename) (List.filter_congr fun a _ => same a)

theorem decide_rename (a b : Uuid) : decide (ρ a = ρ b) = decide (a = b) := by
  simp

/-- The row of a tenant with an identifier. -/
theorem row_rename (rename : α → α) (tenant key : α → Uuid)
    (sameTenant : ∀ a, tenant (rename a) = tenant a) (follows : ∀ a, key (rename a) = ρ (key a))
    (rows : List α) (tenantId id : Uuid) :
    ((rows.map rename).filter fun a => tenant a = tenantId && key a = ρ id) =
      (rows.filter fun a => tenant a = tenantId && key a = id).map rename := by
  apply filter_rename
  intro a
  simp [sameTenant, follows]

theorem renames_scalarOneOrNone (rename : α → α') (rows : List α) :
    Renames ρ (Option.map rename) (scalarOneOrNone rows) (scalarOneOrNone (rows.map rename)) := by
  match rows with
  | [] => exact Renames.pure rfl
  | [only] => exact Renames.pure rfl
  | _ :: _ :: _ => exact Carries.throw _

theorem renames_liftAnswer (rename : α → α') (answer : Except Failure α) :
    Renames ρ rename (liftAnswer answer) (liftAnswer (answer.map rename)) := by
  cases answer with
  | ok a => exact Renames.pure rfl
  | error failure => exact Carries.throw _

/-! ### Ingestion -/

section Store

variable {refuse : Refusal} {tenantId : Uuid}

theorem renames_upsertBook {record : WorkRecord} {newId : Uuid} :
    Renames ρ ρ (upsertBook refuse tenantId record newId)
      (upsertBook (refuse.rename ρ) tenantId record (ρ newId)) := by
  apply Renames.bind (Renames.select fun db => filter_rename _ (fun _ => rfl) _)
  intro existing
  apply Renames.bind (renames_scalarOneOrNone ρ (Book.rename ρ) existing)
  intro found
  cases found with
  | none =>
      apply Renames.andThen (Renames.add _)
      apply Renames.andThen Renames.flush
      exact Renames.pure rfl
  | some book =>
      apply Renames.ite Iff.rfl
      · apply Renames.andThen (Renames.add _)
        exact Renames.pure rfl
      · exact Renames.pure rfl

theorem renames_upsertAuthor {olAuthorKey : String} {name : Option String} {newId : Uuid} :
    Renames ρ ρ (upsertAuthor refuse tenantId olAuthorKey name newId)
      (upsertAuthor (refuse.rename ρ) tenantId olAuthorKey name (ρ newId)) := by
  apply Renames.bind (Renames.select fun db => filter_rename _ (fun _ => rfl) _)
  intro existing
  apply Renames.bind (renames_scalarOneOrNone ρ (Author.rename ρ) existing)
  intro found
  cases found with
  | none =>
      apply Renames.andThen (Renames.add _)
      apply Renames.andThen Renames.flush
      exact Renames.pure rfl
  | some author => exact Renames.pure rfl

theorem renames_linkAuthor {bookId authorId : Uuid} :
    Renames ρ id (linkAuthor refuse bookId authorId)
      (linkAuthor (refuse.rename ρ) (ρ bookId) (ρ authorId)) := by
  apply Renames.bind
  · apply Renames.select
    intro db
    apply filter_rename (BookAuthor.rename ρ)
    intro l
    exact congrArg₂ and (decide_rename ρ l.bookId bookId) (decide_rename ρ l.authorId authorId)
  intro existing
  apply Renames.bind (renames_scalarOneOrNone ρ (BookAuthor.rename ρ) existing)
  intro found
  cases found with
  | none => exact Renames.add _
  | some link => exact Renames.pure rfl

theorem renames_addSubject {bookId : Uuid} {subject : String} :
    Renames ρ id (addSubject refuse bookId subject)
      (addSubject (refuse.rename ρ) (ρ bookId) subject) := by
  apply Renames.bind
  · apply Renames.select
    intro db
    apply filter_rename (BookSubject.rename ρ)
    intro s
    exact congrArg₂ and (decide_rename ρ s.bookId bookId) rfl
  intro existing
  apply Renames.bind (renames_scalarOneOrNone ρ (BookSubject.rename ρ) existing)
  intro found
  cases found with
  | none => exact Renames.add _
  | some subject => exact Renames.pure rfl

end Store

/-- Other identifiers drawn while a work is stored. -/
def renameDraws (draws : Draws) : Draws :=
  { draws with bookId := ρ draws.bookId, authorId := fun i => ρ (draws.authorId i) }

def renameWork (work : WorkInput) : WorkInput :=
  { work with draws := renameDraws ρ work.draws, refuse := work.refuse.rename ρ }

theorem renames_storeRecord {refuse : Refusal} {tenantId : Uuid} {record : WorkRecord}
    {draws : Draws} :
    Renames ρ id (storeRecord refuse tenantId record draws)
      (storeRecord (refuse.rename ρ) tenantId record (renameDraws ρ draws)) := by
  apply Renames.bind (renames_upsertBook ρ)
  intro bookId
  have authors : Renames ρ id (record.authorCalls.forM (storeAuthor refuse tenantId bookId draws))
      ((record.authorCalls.map id).forM
        (storeAuthor (refuse.rename ρ) tenantId (ρ bookId) (renameDraws ρ draws))) := by
    apply Carries.forM
    intro call _
    apply Renames.bind (renames_upsertAuthor ρ)
    intro authorId
    exact renames_linkAuthor ρ
  have subjects : Renames ρ id ((record.subjects.take 50).forM (addSubject refuse bookId))
      (((record.subjects.take 50).map id).forM (addSubject (refuse.rename ρ) (ρ bookId))) := by
    apply Carries.forM
    intro subject _
    exact renames_addSubject ρ
  rw [List.map_id] at authors subjects
  apply Renames.andThen authors
  exact subjects

theorem renames_enrichAndStore {tenantId : Uuid} {work : WorkInput} :
    Renames ρ id (enrichAndStore tenantId work) (enrichAndStore tenantId (renameWork ρ work)) := by
  have enriched := renames_liftAnswer ρ id (enrich work.result work.answers)
  rw [Except.map_id] at enriched
  apply Renames.bind enriched
  intro record
  apply Renames.bind (renames_storeRecord ρ)
  intro _
  exact Renames.flush

theorem renames_storeAll {tenantId : Uuid} (works : List WorkInput) (stored failed : Nat) :
    Renames ρ id (storeAll tenantId works stored failed)
      (storeAll tenantId (works.map (renameWork ρ)) stored failed) := by
  induction works generalizing stored failed with
  | nil => exact Renames.pure rfl
  | cons work rest ih =>
      have tried : Renames ρ id
          (do enrichAndStore tenantId work; return true : IngestM Bool)
          (do enrichAndStore tenantId (renameWork ρ work); return true : IngestM Bool) := by
        apply Renames.bind (renames_enrichAndStore ρ)
        intro _
        exact Renames.pure rfl
      apply Renames.bind (Carries.tryCatch tried fun _ => Carries.pure rfl trivial)
      intro succeeded
      cases succeeded with
      | true => exact ih (stored + 1) failed
      | false => exact ih stored (failed + 1)

def renameSearch (search : Search) : Search where
  byAuthor := search.byAuthor.map (List.map (renameWork ρ))
  bySubject := search.bySubject.map (List.map (renameWork ρ))

theorem renameSearch_run (search : Search) (queryType : QueryType) :
    (renameSearch ρ search).run queryType =
      (search.run queryType).map (List.map (renameWork ρ)) := by
  cases queryType <;> rfl

def renameAttempt (attempt : Attempt) : Attempt :=
  { attempt with search := renameSearch ρ attempt.search, logId := ρ attempt.logId }

/-- The task of the renamed job. -/
def renameTask (args : TaskArgs) : TaskArgs := { args with jobId := ρ args.jobId }

theorem renames_ingest {str : SessionError DbError Failure → String} {args : TaskArgs}
    {attempt : Attempt} :
    Renames ρ (IngestionLog.rename ρ) (ingest str attempt.search (args.request attempt))
      (ingest str (renameAttempt ρ attempt).search
        ((renameTask ρ args).request (renameAttempt ρ attempt))) := by
  apply Renames.andThen (Renames.add _)
  apply Renames.andThen Renames.flush
  apply Renames.bind (f := IngestionLog.rename ρ)
  · apply Carries.tryCatch
    · have found : Renames ρ (List.map (renameWork ρ))
          (liftAnswer (attempt.search.run args.queryType))
          (liftAnswer ((renameSearch ρ attempt.search).run args.queryType)) := by
        rw [renameSearch_run]
        exact renames_liftAnswer ρ _ _
      apply Renames.bind found
      intro works
      have fetched : (works.map (renameWork ρ)).length = works.length := List.length_map ..
      rw [fetched]
      apply Renames.andThen (Renames.add _)
      apply Renames.bind (renames_storeAll ρ works 0 0)
      intro counts
      apply Renames.andThen (Renames.add _)
      exact Renames.pure rfl
    · intro exc
      apply Renames.andThen (Renames.add _)
      exact Renames.pure rfl
  intro log
  apply Renames.andThen Renames.commit
  exact Renames.pure rfl

theorem renames_loadJob {jobId : Uuid} :
    Renames ρ (IngestionJob.rename ρ) (loadJob jobId) (loadJob (ρ jobId)) := by
  apply Renames.bind (f := List.map (IngestionJob.rename ρ))
  · apply Renames.select
    intro db
    apply filter_rename
    intro job
    exact decide_rename ρ job.id jobId
  · intro rows
    match rows with
    | [job] => exact Renames.pure rfl
    | [] => exact Carries.throw _
    | _ :: _ :: _ => exact Carries.throw _

section Attempt

variable {str : SessionError DbError Failure → String} {args : TaskArgs} {attempt : Attempt}

theorem renames_runIngestion :
    Renames ρ id (runIngestion str args attempt)
      (runIngestion str (renameTask ρ args) (renameAttempt ρ attempt)) := by
  apply Renames.bind (renames_loadJob ρ)
  intro job
  apply Renames.andThen (Renames.add _)
  apply Renames.andThen Renames.commit
  apply Renames.bind (renames_ingest ρ)
  intro log
  apply Renames.bind (renames_loadJob ρ)
  intro job
  apply Renames.andThen (Renames.add _)
  exact Renames.commit

theorem renames_markFailed {exc : SessionError DbError Failure} :
    Renames ρ id (markFailed str args exc) (markFailed str (renameTask ρ args) exc) := by
  apply Renames.bind (renames_loadJob ρ)
  intro job
  apply Renames.andThen (Renames.add _)
  exact Renames.commit

theorem renames_ingestWorksAsync :
    Renames ρ id (ingestWorksAsync str args attempt)
      (ingestWorksAsync str (renameTask ρ args) (renameAttempt ρ attempt)) := by
  apply Carries.tryCatch (renames_runIngestion ρ)
  intro exc
  apply Renames.bind (f := id)
  · exact Carries.tryCatch (renames_markFailed ρ) fun _ => Renames.pure rfl
  · intro _
    exact Carries.throw exc

end Attempt

/-! ### Reading lists -/

section ReadingLists

variable {tenantId : Uuid}

theorem renames_findByIsbn {isbn : String} :
    Renames ρ (Option.map (Book.rename ρ)) (findByIsbn tenantId isbn)
      (findByIsbn tenantId isbn) := by
  apply Renames.bind (Renames.selectBinding fun db => filter_rename _ (fun _ => rfl) _)
  intro rows
  exact renames_scalarOneOrNone ρ (Book.rename ρ) rows

theorem renames_findByWorkKey {olWorkKey : String} :
    Renames ρ (Option.map (Book.rename ρ)) (findByWorkKey tenantId olWorkKey)
      (findByWorkKey tenantId olWorkKey) := by
  apply Renames.bind (Renames.selectBinding fun db => filter_rename _ (fun _ => rfl) _)
  intro rows
  exact renames_scalarOneOrNone ρ (Book.rename ρ) rows

/-- Resolution returns no identifier. -/
theorem renames_resolveByKey {workKey isbn : Option String} {answers : ReferenceAnswers} :
    Renames ρ id (resolveByKey tenantId workKey isbn answers)
      (resolveByKey tenantId workKey isbn answers) := by
  apply Carries.ite_bind (P := fun _ => True) (f := Option.map (Book.rename ρ))
  · split
    · exact renames_findByWorkKey ρ
    · exact Renames.pure rfl
  · intro found _
    cases found with
    | some book => exact Renames.pure rfl
    | none =>
        dsimp only [Option.map_none]
        split
        · exact Renames.pure rfl
        · exact Carries.throw _
        · have texts := fun text => renames_liftAnswer ρ id
            ((Failure.other "validation error").onNone (α := String) text)
          simp only [Except.map_id, id] at texts
          apply Renames.bind (texts workKey)
          intro olWorkKey
          apply Renames.bind (texts _)
          intro title
          exact Renames.pure rfl

theorem renames_resolveBook {ref : BookReference} {answers : ReferenceAnswers} :
    Renames ρ id (resolveBook tenantId ref answers) (resolveBook tenantId ref answers) := by
  have byKey : ∀ workKey, Renames ρ id
      (if truthy workKey then resolveByKey tenantId workKey ref.isbn answers
        else return (none, some ⟨none, ref.isbn, "ISBN not found on Open Library"⟩))
      (if truthy workKey then resolveByKey tenantId workKey ref.isbn answers
        else return (none, some ⟨none, ref.isbn, "ISBN not found on Open Library"⟩)) := by
    intro workKey
    split
    · exact renames_resolveByKey ρ
    · exact Renames.pure rfl
  unfold resolveBook
  split
  · exact renames_resolveByKey ρ
  · apply Renames.bind (renames_findByIsbn ρ)
    intro found
    cases found with
    | some book => exact Renames.pure rfl
    | none =>
        dsimp only [Option.map_none]
        split
        · exact renames_resolveByKey ρ
        · split
          · exact byKey _
          · exact Carries.throw _
          · exact byKey _

def renameSubmitDraws (draws : SubmitDraws) : SubmitDraws where
  listId := ρ draws.listId
  itemId i := ρ (draws.itemId i)

theorem itemFor_rename (id readingListId : Uuid) (ref : BookReference)
    (resolved : Option ResolvedBook) (bookId : Option Uuid) :
    itemFor (ρ id) (ρ readingListId) ref resolved (bookId.map ρ) =
      (itemFor id readingListId ref resolved bookId).rename ρ := by
  cases resolved with
  | none => rfl
  | some book => rfl

theorem renames_storeReference {readingListId itemId : Uuid} {ref : BookReference}
    {answers : ReferenceAnswers} :
    Renames ρ id (storeReference tenantId readingListId itemId ref answers)
      (storeReference tenantId (ρ readingListId) (ρ itemId) ref answers) := by
  apply Renames.bind (renames_resolveBook ρ)
  rintro ⟨resolved, unresolved⟩
  have stored : ∀ bookId : Option Uuid, Renames ρ id
      (do
        SessionM.add (.insertReadingListItem (itemFor itemId readingListId ref resolved bookId))
        return (resolved, unresolved) : IngestM Resolution)
      (do
        SessionM.add (.insertReadingListItem
          (itemFor (ρ itemId) (ρ readingListId) ref resolved (bookId.map ρ)))
        return (resolved, unresolved) : IngestM Resolution) := by
    intro bookId
    rw [itemFor_rename]
    apply Renames.andThen (Renames.add _)
    exact Renames.pure rfl
  dsimp only [id]
  split
  · apply Renames.bind (renames_findByWorkKey ρ)
    intro found
    have sameId : (found.map (Book.rename ρ)).map (·.id) = (found.map (·.id)).map ρ := by
      cases found <;> rfl
    simp only [sameId]
    exact stored _
  · exact stored none

theorem renames_storeReferences {readingListId : Uuid} {draws : SubmitDraws}
    {answers : Nat → ReferenceAnswers} {refs : List BookReference} {i : Nat} :
    Renames ρ id (storeReferences tenantId readingListId draws answers refs i)
      (storeReferences tenantId (ρ readingListId) (renameSubmitDraws ρ draws) answers refs i) := by
  induction refs generalizing i with
  | nil => exact Renames.pure rfl
  | cons ref rest ih =>
      apply Renames.bind (renames_storeReference ρ)
      intro resolution
      apply Renames.bind ih
      intro books
      dsimp only [id]
      split
      · exact Renames.pure rfl
      · exact Renames.pure rfl

def renameListResponse (response : ReadingListResponse) : ReadingListResponse :=
  { response with readingListId := ρ response.readingListId }

theorem renames_submit {hashing : Hashing} {submission : Submission} {draws : SubmitDraws}
    {answers : Nat → ReferenceAnswers} :
    Renames ρ (renameListResponse ρ) (submit hashing tenantId submission draws answers)
      (submit hashing tenantId submission (renameSubmitDraws ρ draws) answers) := by
  have masked := renames_liftAnswer ρ id
    ((maskEmail submission.email).mapError fun _ => Failure.other "mask_email")
  rw [Except.map_id] at masked
  apply Renames.bind masked
  intro emailMasked
  apply Renames.bind (Renames.select fun db => filter_rename (ReadingList.rename ρ) (fun _ => rfl) _)
  intro rows
  apply Renames.bind (renames_scalarOneOrNone ρ (ReadingList.rename ρ) rows)
  intro existing
  have stored : ∀ (readingListId : Uuid) (isUpdate : Bool), Renames ρ (renameListResponse ρ)
      (storeAndAnswer tenantId readingListId isUpdate (maskName submission.patronName) emailMasked
        submission.books draws answers)
      (storeAndAnswer tenantId (ρ readingListId) isUpdate (maskName submission.patronName)
        emailMasked submission.books (renameSubmitDraws ρ draws) answers) := by
    intro readingListId isUpdate
    apply Renames.bind (renames_storeReferences ρ)
    intro books
    apply Renames.andThen Renames.commit
    exact Renames.pure rfl
  cases existing with
  | none =>
      apply Renames.andThen (Renames.add _)
      apply Renames.andThen Renames.flush
      exact stored draws.listId false
  | some list =>
      apply Renames.ite (not_congr (ReadingList.rename_inj _ list))
      · apply Renames.andThen (Renames.add _)
        apply Renames.andThen (Renames.add _)
        apply Renames.andThen Renames.flush
        exact stored list.id true
      · apply Renames.andThen (Renames.add _)
        apply Renames.andThen Renames.flush
        exact stored list.id true

end ReadingLists

/-! ### Books -/

def renameSummary (summary : BookSummary) : BookSummary := { summary with id := ρ summary.id }

def renameAuthorSummary (summary : AuthorSummary) : AuthorSummary :=
  { summary with id := ρ summary.id }

def renameDetail (detail : BookDetail) : BookDetail :=
  { detail with id := ρ detail.id, authors := detail.authors.map (renameAuthorSummary ρ) }

def mapPage (f : α → α') (response : PaginatedResponse α) : PaginatedResponse α' :=
  { response with items := response.items.map f }

section Books

variable (c : Catalog) (bookId : Uuid) (collation : Collation) {tenantId : Uuid}
  {filters : BookFilters}

theorem authorsOf_rename :
    authorsOf (c.rename ρ) (ρ bookId) = (authorsOf c bookId).map (Author.rename ρ) := by
  have links : (c.rename ρ).bookAuthors.rows.filter (·.bookId = ρ bookId) =
      (c.bookAuthors.rows.filter (·.bookId = bookId)).map (BookAuthor.rename ρ) :=
    filter_rename _ (fun l => decide_rename ρ l.bookId bookId) _
  have found : ∀ l : BookAuthor, (c.authors.rows.map (Author.rename ρ)).find? (·.id = ρ l.authorId) =
      (c.authors.rows.find? (·.id = l.authorId)).map (Author.rename ρ) := by
    intro l
    rw [List.find?_map]
    congr 2
    funext a
    exact decide_rename ρ a.id l.authorId
  unfold authorsOf
  rw [List.map_filterMap]
  simp only [← found]
  exact (congrArg _ links).trans List.filterMap_map

theorem subjectsOf_rename : subjectsOf (c.rename ρ) (ρ bookId) = subjectsOf c bookId := by
  have subjects : (c.rename ρ).bookSubjects.rows.filter (·.bookId = ρ bookId) =
      (c.bookSubjects.rows.filter (·.bookId = bookId)).map (BookSubject.rename ρ) :=
    filter_rename _ (fun s => decide_rename ρ s.bookId bookId) _
  exact (congrArg _ subjects).trans List.map_map

theorem hasAuthorLike_rename (pattern : String) :
    hasAuthorLike collation pattern (c.rename ρ) (ρ bookId) =
      hasAuthorLike collation pattern c bookId := by
  simp [hasAuthorLike, Catalog.rename, BookAuthor.rename, Author.rename, List.any_map,
    Function.comp_def]

theorem hasSubjectLike_rename (pattern : String) :
    hasSubjectLike collation pattern (c.rename ρ) (ρ bookId) =
      hasSubjectLike collation pattern c bookId := by
  simp [hasSubjectLike, Catalog.rename, BookSubject.rename, List.any_map, Function.comp_def]

theorem baseRows_rename :
    baseRows collation tenantId filters (c.rename ρ) =
      (baseRows collation tenantId filters c).map (Book.rename ρ) := by
  apply filter_rename
  intro b
  apply congrArg (decide (b.tenantId = tenantId) && ·)
  have authors := hasAuthorLike_rename ρ c b.id collation
  have subjects := hasSubjectLike_rename ρ c b.id collation
  simp only [BookFilters.select, Book.rename, authors, subjects]

theorem bookSummary_rename (b : Book) :
    bookSummary (c.rename ρ) (b.rename ρ) = renameSummary ρ (bookSummary c b) := by
  have authors := authorsOf_rename ρ c b.id
  have subjects := subjectsOf_rename ρ c b.id
  simp only [bookSummary, renameSummary, Book.rename, authors, subjects, List.map_map]
  rfl

theorem bookDetail_rename (b : Book) :
    bookDetail (c.rename ρ) (b.rename ρ) = renameDetail ρ (bookDetail c b) := by
  have authors := authorsOf_rename ρ c b.id
  have subjects := subjectsOf_rename ρ c b.id
  simp only [bookDetail, renameDetail, Book.rename, authors, subjects, List.map_map]
  rfl

theorem slice_map (params : PageParams) (rows : List α) :
    params.slice (rows.map f) = (params.slice rows).map f := by
  simp [PageParams.slice, List.map_drop, List.map_take]

theorem pageOfBooks_rename (params : PageParams) :
    pageOfBooks collation tenantId filters params (c.rename ρ) =
      (pageOfBooks collation tenantId filters params c).map (renameSummary ρ) := by
  have ordered := List.map_mergeSort (f := Book.rename ρ)
    (l := baseRows collation tenantId filters c) (r := fun a b => collation.le a.title b.title)
    (s := fun a b => collation.le a.title b.title) fun _ _ _ _ => rfl
  simp only [pageOfBooks, baseRows_rename, ← ordered, slice_map, List.map_map]
  exact List.map_congr_left fun b _ => bookSummary_rename ρ c b

end Books

/-! ### Endpoints -/

def renameJobDetail (detail : IngestionJobDetail) : IngestionJobDetail :=
  { detail with id := ρ detail.id }

def renameLogEntry (entry : IngestionLogEntry) : IngestionLogEntry :=
  { entry with id := ρ entry.id }

def renameListOut (out : ReadingListOut) : ReadingListOut := { out with id := ρ out.id }

def renameJobResponse (response : IngestionJobResponse) : IngestionJobResponse :=
  { response with jobId := ρ response.jobId }

/-- A response with its identifiers exchanged. -/
def renameResponse : Response → Response
  | .books response => .books (mapPage (renameSummary ρ) response)
  | .book detail => .book (renameDetail ρ detail)
  | .jobs response => .jobs (mapPage (renameJobDetail ρ) response)
  | .job detail => .job (renameJobDetail ρ detail)
  | .logs response => .logs (mapPage (renameLogEntry ρ) response)
  | .readingLists response => .readingLists (mapPage (renameListOut ρ) response)
  | .readingList detail => .readingList (renameListOut ρ detail)
  | .ingestionQueued response => .ingestionQueued (renameJobResponse ρ response)
  | .submitted response => .submitted (renameListResponse ρ response)
  | .attempted => .attempted
  | .notFound detail => .notFound detail
  | .serverError exc => .serverError exc

/-- A request that names, and draws, other identifiers. -/
def renameRequest : Request → Request
  | .listBooks filters params => .listBooks filters params
  | .getBook bookId => .getBook (ρ bookId)
  | .triggerIngestion body jobId => .triggerIngestion body (ρ jobId)
  | .listJobs params => .listJobs params
  | .getJob jobId => .getJob (ρ jobId)
  | .listActivityLog params => .listActivityLog params
  | .submitReadingList submission draws answers =>
      .submitReadingList submission (renameSubmitDraws ρ draws) answers
  | .listReadingLists params => .listReadingLists params
  | .getReadingList readingListId => .getReadingList (ρ readingListId)
  | .ingestWorks position attempt => .ingestWorks position (renameAttempt ρ attempt)

def renameOperation (op : Operation) : Operation := { op with request := renameRequest ρ op.request }

def renameService (s : Service) : Service where
  db := s.db.rename ρ
  enqueued tenantId := (s.enqueued tenantId).map (renameTask ρ)

section Endpoints

variable {tenantId : Uuid}

theorem readingListOut_rename (db : Database) (rl : ReadingList) :
    readingListOut (db.rename ρ) (rl.rename ρ) = renameListOut ρ (readingListOut db rl) := by
  have items : (db.rename ρ).readingListItems.rows.filter (·.readingListId = (rl.rename ρ).id) =
      (db.readingListItems.rows.filter (·.readingListId = rl.id)).map (ReadingListItem.rename ρ) :=
    filter_rename _ (fun i => decide_rename ρ i.readingListId rl.id) _
  unfold readingListOut
  rw [items, List.map_map]
  rfl

theorem renames_listNewestFirst {params : PageParams} {rows : Database → List α}
    {out : Database → α → β} (rename : α → α) (renameOut : β → β)
    (seen : ∀ db, rows (db.rename ρ) = (rows db).map rename)
    (shown : ∀ db a, out (db.rename ρ) (rename a) = renameOut (out db a)) :
    Renames ρ (mapPage renameOut) (listNewestFirst params rows out)
      (listNewestFirst params rows out) := by
  apply Renames.bind (f := id)
  · apply Renames.select
    intro db
    simp [seen]
  intro total
  apply Renames.bind (f := List.map renameOut)
  · apply Renames.selectBinding
    intro db
    rw [seen, ← List.map_reverse, slice_map, List.map_map, List.map_map]
    exact List.map_congr_left fun a _ => shown db a
  intro items
  exact Renames.pure rfl

theorem renames_listJobs {params : PageParams} :
    Renames ρ (mapPage (renameJobDetail ρ)) (listJobs tenantId params)
      (listJobs tenantId params) :=
  renames_listNewestFirst ρ (IngestionJob.rename ρ) (renameJobDetail ρ)
    (fun _ => filter_rename _ (fun _ => rfl) _) fun _ _ => rfl

theorem renames_listActivityLog {params : PageParams} :
    Renames ρ (mapPage (renameLogEntry ρ)) (listActivityLog tenantId params)
      (listActivityLog tenantId params) :=
  renames_listNewestFirst ρ (IngestionLog.rename ρ) (renameLogEntry ρ)
    (fun _ => filter_rename _ (fun _ => rfl) _) fun _ _ => rfl

theorem renames_listReadingLists {params : PageParams} :
    Renames ρ (mapPage (renameListOut ρ)) (listReadingLists tenantId params)
      (listReadingLists tenantId params) :=
  renames_listNewestFirst ρ (ReadingList.rename ρ) (renameListOut ρ)
    (fun _ => filter_rename _ (fun _ => rfl) _) (readingListOut_rename ρ)

theorem renames_listBooks {collation : Collation} {filters : BookFilters} {params : PageParams} :
    Renames ρ (mapPage (renameSummary ρ)) (listBooks collation tenantId filters params)
      (listBooks collation tenantId filters params) := by
  apply Renames.bind (f := id)
  · apply Renames.selectBinding
    intro db
    exact (congrArg List.length (baseRows_rename ρ db.catalog collation)).trans (List.length_map _)
  intro total
  apply Renames.bind (Renames.selectBinding fun db => pageOfBooks_rename ρ db.catalog collation params)
  intro items
  exact Renames.pure rfl

theorem renames_getBook {bookId : Uuid} :
    Renames ρ (Option.map (renameDetail ρ)) (getBook tenantId bookId)
      (getBook tenantId (ρ bookId)) := by
  apply Renames.bind (f := List.map (renameDetail ρ))
  · apply Renames.select
    intro db
    have rows := row_rename ρ (Book.rename ρ) Book.tenantId Book.id (fun _ => rfl) (fun _ => rfl)
      db.catalog.books.rows tenantId bookId
    apply (congrArg (List.map _) rows).trans
    rw [List.map_map, List.map_map]
    exact List.map_congr_left fun b _ => bookDetail_rename ρ db.catalog b
  intro rows
  exact renames_scalarOneOrNone ρ _ rows

theorem renames_getJob {jobId : Uuid} :
    Renames ρ (Option.map (renameJobDetail ρ)) (getJob tenantId jobId)
      (getJob tenantId (ρ jobId)) := by
  apply Renames.bind (f := List.map (renameJobDetail ρ))
  · apply Renames.select
    intro db
    have rows := row_rename ρ (IngestionJob.rename ρ) IngestionJob.tenantId IngestionJob.id (fun _ => rfl) (fun _ => rfl)
      db.jobs.rows tenantId jobId
    apply (congrArg (List.map _) rows).trans
    rw [List.map_map, List.map_map]
    rfl
  intro rows
  exact renames_scalarOneOrNone ρ _ rows

theorem renames_getReadingList {readingListId : Uuid} :
    Renames ρ (Option.map (renameListOut ρ)) (getReadingList tenantId readingListId)
      (getReadingList tenantId (ρ readingListId)) := by
  apply Renames.bind (f := List.map (renameListOut ρ))
  · apply Renames.select
    intro db
    have rows := row_rename ρ (ReadingList.rename ρ) ReadingList.tenantId ReadingList.id (fun _ => rfl) (fun _ => rfl)
      db.readingLists.rows tenantId readingListId
    apply (congrArg (List.map _) rows).trans
    rw [List.map_map, List.map_map]
    exact List.map_congr_left fun l _ => readingListOut_rename ρ db l
  intro rows
  exact renames_scalarOneOrNone ρ _ rows

theorem renames_triggerIngestion {body : IngestionBody} {jobId : Uuid} :
    Renames ρ (renameJobResponse ρ) (triggerIngestion tenantId body jobId)
      (triggerIngestion tenantId body (ρ jobId)) := by
  apply Renames.andThen (Renames.add _)
  apply Renames.andThen Renames.commit
  exact Renames.pure rfl

theorem renames_handle {env : Environment} {tasks : List TaskArgs} {request : Request} :
    Renames ρ (renameResponse ρ) (handle env tenantId tasks request)
      (handle env tenantId (tasks.map (renameTask ρ)) (renameRequest ρ request)) := by
  -- the response is made from what the service returns
  have responds : ∀ {α : Type} {f : α → α} {program image : IngestM α} {respond : α → Response},
      Renames ρ f program image → (∀ a, respond (f a) = renameResponse ρ (respond a)) →
        Renames ρ (renameResponse ρ) (do return respond (← program))
          (do return respond (← image)) :=
    fun served same => served.bind fun a => Renames.pure (same a)
  have found : ∀ {α : Type} {f : α → α} (detail : String) {respond : α → Response},
      (∀ a, respond (f a) = renameResponse ρ (respond a)) → ∀ row : Option α,
        orNotFound detail respond (row.map f) = renameResponse ρ (orNotFound detail respond row) := by
    intro α f detail respond same row
    cases row with
    | none => rfl
    | some a => exact same a
  cases request with
  | listBooks filters params => exact responds (renames_listBooks ρ) fun _ => rfl
  | getBook bookId => exact responds (renames_getBook ρ) (found _ fun _ => rfl)
  | triggerIngestion body jobId => exact responds (renames_triggerIngestion ρ) fun _ => rfl
  | listJobs params => exact responds (renames_listJobs ρ) fun _ => rfl
  | getJob jobId => exact responds (renames_getJob ρ) (found _ fun _ => rfl)
  | listActivityLog params => exact responds (renames_listActivityLog ρ) fun _ => rfl
  | submitReadingList submission draws answers => exact responds (renames_submit ρ) fun _ => rfl
  | listReadingLists params => exact responds (renames_listReadingLists ρ) fun _ => rfl
  | getReadingList readingListId => exact responds (renames_getReadingList ρ) (found _ fun _ => rfl)
  | ingestWorks position attempt =>
      unfold handle renameRequest
      dsimp only
      rw [List.getElem?_map]
      cases tasks[position]? with
      | none => exact Renames.pure rfl
      | some args =>
          apply Renames.andThen (renames_ingestWorksAsync ρ)
          exact Renames.pure rfl

theorem respond_rename (result : Except (SessionError DbError Failure) Response) :
    respond (result.map (renameResponse ρ)) = renameResponse ρ (respond result) := by
  cases result <;> rfl

theorem enqueues_rename (request : Request) (response : Response) :
    enqueues tenantId (renameRequest ρ request) (renameResponse ρ response) =
      (enqueues tenantId request response).map (renameTask ρ) := by
  cases request <;> cases response <;> rfl

theorem renameService_enqueue (s : Service) (task : Option TaskArgs) :
    renameService ρ (s.enqueue task) = (renameService ρ s).enqueue (task.map (renameTask ρ)) := by
  cases task with
  | none => rfl
  | some args =>
      apply Service.ext
      · rfl
      · intro tenantId
        by_cases same : tenantId = args.tenantId
        · subst same
          have added := Service.enqueued_enqueue (renameService ρ s) (renameTask ρ args)
          simp only [renameService, Service.enqueued_enqueue, List.map_append, Option.map_some]
          exact added.symm
        · have kept :=
            @Service.enqueued_enqueue_of_ne (renameService ρ s) (renameTask ρ args) tenantId same
          simp only [renameService, Service.enqueued_enqueue_of_ne s same, Option.map_some]
          exact kept.symm

/-- Serving a renamed operation on the renamed service. -/
theorem serve_rename (env : Environment) (s : Service) (op : Operation) :
    serve env (renameService ρ s) (renameOperation ρ op) =
      (renameResponse ρ (serve env s op).1, renameService ρ (serve env s op).2) := by
  obtain ⟨_, result, db⟩ := Carries.run (@renames_handle ρ op.tenantId env
    (s.enqueued op.tenantId) op.request) (trivial : (renamed ρ).Inv s.db)
  have response : respond _ = _ := (congrArg respond result).trans (respond_rename ρ _)
  unfold serve
  dsimp only
  rw [renameService_enqueue]
  apply Prod.ext
  · exact response
  · apply congrArg₂ Service.enqueue
    · exact Service.ext db fun _ => rfl
    · exact (congrArg (enqueues op.tenantId (renameRequest ρ op.request)) response).trans
        (enqueues_rename ρ op.request _)

end Endpoints

end TenantLibrary.Tenancy
