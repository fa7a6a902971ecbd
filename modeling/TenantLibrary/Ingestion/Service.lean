import Mathlib.Data.List.Enum
import TenantLibrary.Store.Schema

/-!
The two-pass ingestion pipeline (`app/services/ingestion_service.py`).

The services run in `IngestM`, programs over one SQLAlchemy session: every query
flushes what was added before it, and an exception leaves the session where it was.
`enrich` is the part of `_enrich_and_store` that only talks to Open Library and
touches no row; `storeRecord` is the part that follows it.

What the environment does while one work is ingested is part of that work's
`WorkInput`: the answers Open Library gives, the identifiers drawn, and the values
the database refuses. Two works of one batch can meet different environments.
-/

namespace TenantLibrary.Ingestion

open TenantLibrary.Lib TenantLibrary.OpenLibrary TenantLibrary.Store

/-- Programs of the services. -/
abbrev IngestM := SessionM Database Write DbError Failure

/-! ### Inputs -/

/-- What Open Library answers while a work is enriched: the outcome of `get_work`,
and of the `get_author` call for each position of `author_refs`. -/
structure Answers where
  work : Except Failure WorkDetail
  author : Nat → Except Failure AuthorDetail

/-- The results of `uuid4` while a work is stored: `keySuffix i` is the first eight
hexadecimal digits of the one drawn for the i-th author name. -/
structure Draws where
  bookId : Uuid
  authorId : Nat → Uuid
  keySuffix : Nat → String

structure WorkInput where
  result : SearchResult
  answers : Answers
  draws : Draws
  refuse : Refusal

/-! ### Enrichment -/

/-- Python's `x or y` where only `None` and the listed falsy value count as false. -/
def pyOr {α : Type} [DecidableEq α] (falsy : α) (x y : Option α) : Option α :=
  match x with
  | none => y
  | some a => if a = falsy then y else some a

/-- `x or y` on lists. -/
def listOr {α : Type} (xs ys : List α) : List α := if xs.isEmpty then ys else xs

/-- The local variables of `_enrich_and_store` when the first row is touched. -/
structure WorkRecord where
  workKey : String
  isbn : Option String
  title : Option String
  authorNames : List (Option String)
  authorKeys : List String
  subjects : List String
  coverId : Option Int
  firstPublishYear : Option Int
  description : Option String
deriving DecidableEq, Repr

/-- The loop over `author_refs`: the names of the authors that could be resolved. -/
def resolveAuthors (author : Nat → Except Failure AuthorDetail) :
    List String → Except Failure (List (Option String))
  | [] => .ok []
  | _ :: rest =>
      match author 0 with
      | .ok detail => do
          let names ← resolveAuthors (fun i => author (i + 1)) rest
          return detail.name :: names
      | .error (.openLibraryError _) => resolveAuthors (fun i => author (i + 1)) rest
      | .error failure => .error failure

/-- A reference adds the name it resolves to, or none when its call fails and is caught. -/
theorem resolveAuthors_cons {author : Nat → Except Failure AuthorDetail} {ref : String}
    {rest : List String} {names : List (Option String)} :
    resolveAuthors author (ref :: rest) = .ok names ↔
      (∃ detail later, author 0 = .ok detail ∧
        resolveAuthors (fun i => author (i + 1)) rest = .ok later ∧ names = detail.name :: later) ∨
      ∃ message, author 0 = .error (.openLibraryError message) ∧
        resolveAuthors (fun i => author (i + 1)) rest = .ok names := by
  rw [resolveAuthors]
  cases author 0 with
  | ok detail =>
      dsimp only
      rw [bind_eq_ok]
      constructor
      · rintro ⟨later, followed, made⟩
        exact .inl ⟨detail, later, rfl, followed, (Except.ok.inj made).symm⟩
      · rintro (⟨_, later, same, followed, rfl⟩ | ⟨_, same, -⟩)
        · obtain rfl := Except.ok.inj same
          exact ⟨later, followed, rfl⟩
        · cases same
  | error failure => cases failure <;> simp

/-- The first half of `_enrich_and_store`. -/
def enrich (result : SearchResult) (answers : Answers) : Except Failure WorkRecord := do
  let authorNames ← Failure.typeError.onNone result.authorNames
  let record : WorkRecord :=
    { workKey := result.workKey
      isbn := result.isbn
      title := result.title
      authorNames := authorNames.map some
      authorKeys := result.authorKeys
      subjects := result.subjects
      coverId := result.coverId
      firstPublishYear := result.firstPublishYear
      description := none }
  let needsEnrichment :=
    record.subjects.isEmpty || record.authorNames.isEmpty || record.coverId.isNone
  if needsEnrichment then
    match answers.work with
    | .error (.openLibraryError _) => return record
    | .error failure => .error failure
    | .ok workDetail =>
        let record :=
          { record with
            title := pyOr "" record.title workDetail.title
            subjects := listOr record.subjects workDetail.subjects
            description := workDetail.description
            coverId :=
              if record.coverId.isNone then workDetail.coverIds.bind List.head?
              else record.coverId }
        if record.authorNames.isEmpty && !workDetail.authorRefs.isEmpty then
          let names ← resolveAuthors answers.author workDetail.authorRefs
          return { record with authorNames := names, authorKeys := workDetail.authorRefs }
        else return record
  else return record

/-- Where the authors of a record come from: the search result, or the references of
the work detail when the result names none and the detail has some. -/
theorem enrich_authors {result : SearchResult} {answers : Answers} {record : WorkRecord}
    (enriched : enrich result answers = .ok record) :
    ∃ names, result.authorNames = some names ∧
      ((record.authorNames = names.map some ∧ record.authorKeys = result.authorKeys ∧
          (names = [] → ∀ workDetail, answers.work = .ok workDetail → workDetail.authorRefs = [])) ∨
        names = [] ∧ ∃ workDetail, answers.work = .ok workDetail ∧ workDetail.authorRefs ≠ [] ∧
          resolveAuthors answers.author workDetail.authorRefs = .ok record.authorNames ∧
            record.authorKeys = workDetail.authorRefs) := by
  obtain ⟨names, named, enriched⟩ := bind_eq_ok.mp enriched
  refine ⟨names, Failure.onNone_eq_ok.mp named, ?_⟩
  dsimp only at enriched
  split at enriched
  case isTrue needed =>
    split at enriched
    case h_1 answered =>
      obtain rfl := Except.ok.inj enriched
      refine .inl ⟨rfl, rfl, fun _ workDetail other => ?_⟩
      rw [answered] at other
      cases other
    case h_2 => cases enriched
    case h_3 workDetail answered =>
      split at enriched
      case isTrue missing =>
        obtain ⟨rfl, refs⟩ : names = [] ∧ workDetail.authorRefs ≠ [] := by simpa using missing
        obtain ⟨resolvedNames, resolved, made⟩ := bind_eq_ok.mp enriched
        obtain rfl := Except.ok.inj made
        exact .inr ⟨rfl, workDetail, answered, refs, resolved, rfl⟩
      case isFalse present =>
        obtain rfl := Except.ok.inj enriched
        refine .inl ⟨rfl, rfl, fun noNames other same => ?_⟩
        obtain rfl := Except.ok.inj (answered.symm.trans same)
        simpa [noNames] using present
  case isFalse complete =>
    obtain rfl := Except.ok.inj enriched
    refine .inl ⟨rfl, rfl, fun noNames => ?_⟩
    simp [noNames] at complete

/-! ### Storing -/

/-- `scalar_one_or_none`. -/
def scalarOneOrNone {α : Type} : List α → IngestM (Option α)
  | [] => return none
  | [row] => return some row
  | _ => throw (.raised (.other "Multiple rows were found when one or none was required"))

/-- `cover_url` for a cover that may be missing or 0. -/
def coverUrl (coverId : Option Int) : Option String :=
  match coverId with
  | none => none
  | some id => if id = 0 then none else some (buildCoverUrl id)

/-- The columns of a new book. -/
def newValues (record : WorkRecord) : BookValues where
  isbn := record.isbn
  title := record.title
  firstPublishYear := record.firstPublishYear
  coverId := record.coverId
  coverUrl := coverUrl record.coverId
  description := record.description

/-- The columns of a book seen again: the title is replaced, every other column keeps
its stored value where the record has none. -/
def mergedValues (record : WorkRecord) (book : Book) : BookValues where
  isbn := pyOr "" record.isbn book.isbn
  title := record.title
  firstPublishYear := pyOr 0 record.firstPublishYear book.firstPublishYear
  coverId := pyOr 0 record.coverId book.coverId
  coverUrl := pyOr "" (coverUrl record.coverId) book.coverUrl
  description := pyOr "" record.description book.description

/-- The `Upsert book` section; the id of the book. An attribute set to the value it
has emits no `UPDATE`. -/
def upsertBook (refuse : Refusal) (tenantId : Uuid) (record : WorkRecord) (newId : Uuid) :
    IngestM Uuid := do
  let existing ← SessionM.select (Write.send refuse) fun db =>
    db.catalog.books.rows.filter fun b => b.tenantId = tenantId && b.olWorkKey = record.workKey
  match ← scalarOneOrNone existing with
  | none =>
      SessionM.add (.catalog (.insertBook newId tenantId record.workKey (newValues record)))
      SessionM.flush (Write.send refuse)
      return newId
  | some book =>
      if mergedValues record book ≠ book.values then
        SessionM.add (.catalog (.updateBook book.id (mergedValues record book)))
      return book.id

/-- `_upsert_author`; the id of the author. -/
def upsertAuthor (refuse : Refusal) (tenantId : Uuid) (olAuthorKey : String)
    (name : Option String) (newId : Uuid) : IngestM Uuid := do
  let existing ← SessionM.select (Write.send refuse) fun db =>
    db.catalog.authors.rows.filter fun a => a.tenantId = tenantId && a.olAuthorKey = olAuthorKey
  match ← scalarOneOrNone existing with
  | none =>
      SessionM.add (.catalog (.insertAuthor newId tenantId olAuthorKey name))
      SessionM.flush (Write.send refuse)
      return newId
  | some author => return author.id

/-- Link a book and an author unless they are linked. -/
def linkAuthor (refuse : Refusal) (bookId authorId : Uuid) : IngestM Unit := do
  let existing ← SessionM.select (Write.send refuse) fun db =>
    db.catalog.bookAuthors.rows.filter fun l => l.bookId = bookId && l.authorId = authorId
  if (← scalarOneOrNone existing).isNone then
    SessionM.add (.catalog (.insertBookAuthor bookId authorId))

/-- Add a subject to a book unless the book has it. -/
def addSubject (refuse : Refusal) (bookId : Uuid) (subject : String) : IngestM Unit := do
  let existing ← SessionM.select (Write.send refuse) fun db =>
    db.catalog.bookSubjects.rows.filter fun s => s.bookId = bookId && s.subject = subject
  if (← scalarOneOrNone existing).isNone then
    SessionM.add (.catalog (.insertBookSubject bookId subject))

/-- One round of the author loop: the position, the key at that position if there is
one, and the name. -/
structure AuthorCall where
  index : Nat
  key : Option String
  name : Option String
deriving DecidableEq, Repr

/-- `for i, author_name in enumerate(author_names)`, with `author_keys[i]`. -/
def WorkRecord.authorCalls (record : WorkRecord) : List AuthorCall :=
  record.authorNames.zipIdx.map fun (name, i) => ⟨i, record.authorKeys[i]?, name⟩

/-- The key an author is looked up under. -/
def AuthorCall.olAuthorKey (call : AuthorCall) (draws : Draws) : String :=
  call.key.getD ("unknown-" ++ draws.keySuffix call.index)

/-- The body of the author loop. -/
def storeAuthor (refuse : Refusal) (tenantId bookId : Uuid) (draws : Draws) (call : AuthorCall) :
    IngestM Unit := do
  let authorId ← upsertAuthor refuse tenantId (call.olAuthorKey draws) call.name
    (draws.authorId call.index)
  linkAuthor refuse bookId authorId

/-- The second half of `_enrich_and_store`, up to its last flush. -/
def storeRecord (refuse : Refusal) (tenantId : Uuid) (record : WorkRecord) (draws : Draws) :
    IngestM Unit := do
  let bookId ← upsertBook refuse tenantId record draws.bookId
  record.authorCalls.forM (storeAuthor refuse tenantId bookId draws)
  (record.subjects.take 50).forM (addSubject refuse bookId)

/-- An outcome of the client in a program. -/
def liftAnswer {α : Type} : Except Failure α → IngestM α
  | .ok a => return a
  | .error failure => throw (.raised failure)

/-- `_enrich_and_store`. -/
def enrichAndStore (tenantId : Uuid) (work : WorkInput) : IngestM Unit := do
  let record ← liftAnswer (enrich work.result work.answers)
  storeRecord work.refuse tenantId record work.draws
  SessionM.flush (Write.send work.refuse)

/-! ### The batch -/

/-- The loop over `search_results`: how many works were stored and how many failed. -/
def storeAll (tenantId : Uuid) : List WorkInput → Nat → Nat → IngestM (Nat × Nat)
  | [], stored, failed => return (stored, failed)
  | work :: rest, stored, failed => do
      let succeeded ← tryCatch (do enrichAndStore tenantId work; return true) fun _ => return false
      if succeeded then storeAll tenantId rest (stored + 1) failed
      else storeAll tenantId rest stored (failed + 1)

/-- The outcomes of the two searches; `ingest` makes one of them. -/
structure Search where
  byAuthor : Except Failure (List WorkInput)
  bySubject : Except Failure (List WorkInput)

def Search.run (search : Search) : QueryType → Except Failure (List WorkInput)
  | .author => search.byAuthor
  | .subject => search.bySubject

/-- The arguments of `ingest`, and the id drawn for its log. -/
structure IngestRequest where
  tenantId : Uuid
  queryType : QueryType
  queryValue : String
  jobId : Option Uuid
  logId : Uuid
deriving DecidableEq, Repr

/-- The log as it is first inserted. -/
def IngestRequest.log (request : IngestRequest) : IngestionLog where
  id := request.logId
  tenantId := request.tenantId
  jobId := request.jobId
  queryType := request.queryType
  queryValue := request.queryValue
  worksFetched := 0
  worksStored := 0
  worksFailed := 0
  status := .running
  errorMessage := none

/-- `str(exc)[:2000]`, for a given `str`. -/
def errorText (str : SessionError DbError Failure → String) (exc : SessionError DbError Failure) :
    String :=
  String.ofList ((str exc).toList.take 2000)

/-- `IngestionService.ingest`. -/
def ingest (str : SessionError DbError Failure → String) (search : Search)
    (request : IngestRequest) : IngestM IngestionLog := do
  let database := Write.send Refusal.never
  let log := request.log
  SessionM.add (.insertLog log)
  SessionM.flush database
  let log ← tryCatch
    (do
      let searchResults ← liftAnswer (search.run request.queryType)
      let log := { log with worksFetched := searchResults.length }
      SessionM.add (.updateLog log)
      let (stored, failed) ← storeAll request.tenantId searchResults 0 0
      let log := { log with worksStored := stored, worksFailed := failed, status := .completed }
      SessionM.add (.updateLog log)
      return log)
    fun exc => do
      let log := { log with status := .failed, errorMessage := some (errorText str exc) }
      SessionM.add (.updateLog log)
      return log
  SessionM.commit database
  return log

end TenantLibrary.Ingestion
