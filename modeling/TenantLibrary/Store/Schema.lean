import TenantLibrary.Lib.Session
import TenantLibrary.Lib.Table
import TenantLibrary.OpenLibrary.Client
import TenantLibrary.Store.Varchar

/-!
The tables (`app/models`) and the statements the services send.

Every table carries its unique constraints. A statement is refused when it would
break one of them, when it leaves a required column empty, when it links rows that
do not exist, or for a reason that depends on the value alone (a text too long for
its column, an invalid byte): those reasons are the argument `refuse`. A text whose
excess is spaces is not refused, it is cut.

Identifiers drawn with `uuid4` are arguments of the operations that draw them.
Timestamps are not stored; the rows of a table stand in order of insertion.
-/

namespace TenantLibrary.Store

open TenantLibrary.Lib

abbrev Uuid := Nat

/-! ### Rows -/

structure Book where
  id : Uuid
  tenantId : Uuid
  olWorkKey : String
  isbn : Option String
  title : String
  firstPublishYear : Option Int
  coverId : Option Int
  coverUrl : Option String
  description : Option String
deriving DecidableEq, Repr

structure Author where
  id : Uuid
  tenantId : Uuid
  olAuthorKey : String
  name : String
deriving DecidableEq, Repr

structure BookAuthor where
  bookId : Uuid
  authorId : Uuid
deriving DecidableEq, Repr

structure BookSubject where
  bookId : Uuid
  subject : String
deriving DecidableEq, Repr

inductive QueryType where
  | author
  | subject
deriving DecidableEq, Repr

inductive Status where
  | queued
  | running
  | completed
  | failed
deriving DecidableEq, Repr

structure Progress where
  worksFetched : Nat
  worksStored : Nat
  worksFailed : Nat
deriving DecidableEq, Repr

structure IngestionJob where
  id : Uuid
  tenantId : Uuid
  celeryTaskId : Option String
  queryType : QueryType
  queryValue : String
  limit : Nat
  status : Status
  progress : Option Progress
  errorMessage : Option String
deriving DecidableEq, Repr

structure IngestionLog where
  id : Uuid
  tenantId : Uuid
  jobId : Option Uuid
  queryType : QueryType
  queryValue : String
  worksFetched : Nat
  worksStored : Nat
  worksFailed : Nat
  status : Status
  errorMessage : Option String
deriving DecidableEq, Repr

structure ReadingList where
  id : Uuid
  tenantId : Uuid
  patronNameHash : String
  emailHash : String
  patronNameMasked : String
  emailMasked : String
deriving DecidableEq, Repr

structure ReadingListItem where
  id : Uuid
  readingListId : Uuid
  olWorkKey : Option String
  isbn : Option String
  bookId : Option Uuid
  resolved : Bool
deriving DecidableEq, Repr

/-! ### Unique constraints -/

/-- The primary key, and `uq_books_tenant_ol_key`. -/
def Book.Clash (a b : Book) : Prop :=
  a.id = b.id ∨ (a.tenantId = b.tenantId ∧ a.olWorkKey = b.olWorkKey)

/-- The primary key, and `uq_authors_tenant_ol_key`. -/
def Author.Clash (a b : Author) : Prop :=
  a.id = b.id ∨ (a.tenantId = b.tenantId ∧ a.olAuthorKey = b.olAuthorKey)

def IngestionJob.Clash (a b : IngestionJob) : Prop := a.id = b.id

def IngestionLog.Clash (a b : IngestionLog) : Prop := a.id = b.id

/-- The primary key, and `uq_reading_lists_tenant_email`. -/
def ReadingList.Clash (a b : ReadingList) : Prop :=
  a.id = b.id ∨ (a.tenantId = b.tenantId ∧ a.emailHash = b.emailHash)

def ReadingListItem.Clash (a b : ReadingListItem) : Prop := a.id = b.id

instance : DecidableRel Book.Clash := fun a b => by unfold Book.Clash; infer_instance
instance : DecidableRel Author.Clash := fun a b => by unfold Author.Clash; infer_instance
instance : DecidableRel IngestionJob.Clash := fun a b => by
  unfold IngestionJob.Clash; infer_instance
instance : DecidableRel IngestionLog.Clash := fun a b => by
  unfold IngestionLog.Clash; infer_instance
instance : DecidableRel ReadingList.Clash := fun a b => by
  unfold ReadingList.Clash; infer_instance
instance : DecidableRel ReadingListItem.Clash := fun a b => by
  unfold ReadingListItem.Clash; infer_instance

/-! ### Tables -/

/-- The tables the ingestion of works writes. -/
structure Catalog where
  books : Table Book Book.Clash
  authors : Table Author Author.Clash
  bookAuthors : Table BookAuthor (· = ·)
  bookSubjects : Table BookSubject (· = ·)
deriving DecidableEq

structure Database where
  catalog : Catalog
  jobs : Table IngestionJob IngestionJob.Clash
  logs : Table IngestionLog IngestionLog.Clash
  readingLists : Table ReadingList ReadingList.Clash
  readingListItems : Table ReadingListItem ReadingListItem.Clash
deriving DecidableEq

def Catalog.empty : Catalog := ⟨.empty, .empty, .empty, .empty⟩

def Database.empty : Database := ⟨.empty, .empty, .empty, .empty, .empty⟩

/-! ### Statements -/

/-- The columns of a book an ingestion sets, as the ORM object holds them. -/
structure BookValues where
  isbn : Option String
  title : Option String
  firstPublishYear : Option Int
  coverId : Option Int
  coverUrl : Option String
  description : Option String
deriving DecidableEq, Repr

def Book.values (book : Book) : BookValues :=
  ⟨book.isbn, some book.title, book.firstPublishYear, book.coverId, book.coverUrl,
    book.description⟩

inductive CatalogWrite where
  | insertBook (id tenantId : Uuid) (olWorkKey : String) (values : BookValues)
  | updateBook (id : Uuid) (values : BookValues)
  | insertAuthor (id tenantId : Uuid) (olAuthorKey : String) (name : Option String)
  | insertBookAuthor (bookId authorId : Uuid)
  | insertBookSubject (bookId : Uuid) (subject : String)
deriving DecidableEq, Repr

/-- A refused insert is a violation of a unique constraint. -/
def orUniqueViolation {α : Type} : Option α → Except DbError α
  | none => .error .uniqueViolation
  | some a => .ok a

/-- The row of a new book. -/
def newBook (id tenantId : Uuid) (olWorkKey : String) (values : BookValues) (title : String) :
    Book where
  id := id
  tenantId := tenantId
  olWorkKey := olWorkKey
  isbn := values.isbn
  title := title
  firstPublishYear := values.firstPublishYear
  coverId := values.coverId
  coverUrl := values.coverUrl
  description := values.description

/-- Set the columns of the book with this id. -/
def Book.assign (id : Uuid) (values : BookValues) (title : String) (book : Book) : Book :=
  if book.id = id then
    { book with
      isbn := values.isbn
      title
      firstPublishYear := values.firstPublishYear
      coverId := values.coverId
      coverUrl := values.coverUrl
      description := values.description }
  else book

@[simp] theorem Book.assign_id (id : Uuid) (values : BookValues) (title : String) (book : Book) :
    (book.assign id values title).id = book.id := by
  unfold Book.assign
  split <;> rfl

@[simp] theorem Book.assign_tenantId (id : Uuid) (values : BookValues) (title : String)
    (book : Book) : (book.assign id values title).tenantId = book.tenantId := by
  unfold Book.assign
  split <;> rfl

@[simp] theorem Book.assign_olWorkKey (id : Uuid) (values : BookValues) (title : String)
    (book : Book) : (book.assign id values title).olWorkKey = book.olWorkKey := by
  unfold Book.assign
  split <;> rfl

theorem Book.Clash.symm {a b : Book} (clash : a.Clash b) : b.Clash a := by
  rcases clash with id | ⟨tenant, key⟩
  · exact .inl id.symm
  · exact .inr ⟨tenant.symm, key.symm⟩

theorem Book.clash_of_assign {id : Uuid} {values : BookValues} {title : String} (a b : Book)
    (clash : (a.assign id values title).Clash (b.assign id values title)) : a.Clash b := by
  simpa [Book.Clash] using clash

/-- What a statement does to tables that accept its values. -/
def CatalogWrite.run : CatalogWrite → Catalog → Except DbError Catalog
  | .insertBook id tenantId olWorkKey values, c =>
      match values.title with
      | none => .error .notNullViolation
      | some title => do
          let books ← orUniqueViolation (c.books.insert (newBook id tenantId olWorkKey values title))
          return { c with books }
  | .updateBook id values, c =>
      match values.title with
      | none => .error .notNullViolation
      | some title => .ok
          { c with books := c.books.modify (Book.assign id values title) Book.clash_of_assign }
  | .insertAuthor id tenantId olAuthorKey name, c =>
      match name with
      | none => .error .notNullViolation
      | some name => do
          let authors ← orUniqueViolation (c.authors.insert { id, tenantId, olAuthorKey, name })
          return { c with authors }
  | .insertBookAuthor bookId authorId, c =>
      if c.books.rows.any (·.id = bookId) && c.authors.rows.any (·.id = authorId) then do
        let bookAuthors ← orUniqueViolation (c.bookAuthors.insert { bookId, authorId })
        return { c with bookAuthors }
      else .error .foreignKeyViolation
  | .insertBookSubject bookId subject, c =>
      if c.books.rows.any (·.id = bookId) then do
        let bookSubjects ← orUniqueViolation (c.bookSubjects.insert { bookId, subject })
        return { c with bookSubjects }
      else .error .foreignKeyViolation

/-- The values as the columns of a book keep them. -/
def BookValues.cut (values : BookValues) : BookValues :=
  { values with
    isbn := values.isbn.map (Store.cut 20)
    title := values.title.map (Store.cut 1000)
    coverUrl := values.coverUrl.map (Store.cut 500) }

/-- The statement as it arrives at the rows, with its texts cut. -/
def CatalogWrite.cut : CatalogWrite → CatalogWrite
  | .insertBook id tenantId olWorkKey values =>
      .insertBook id tenantId (Store.cut 50 olWorkKey) values.cut
  | .updateBook id values => .updateBook id values.cut
  | .insertAuthor id tenantId olAuthorKey name =>
      .insertAuthor id tenantId (Store.cut 50 olAuthorKey) (name.map (Store.cut 500))
  | .insertBookAuthor bookId authorId => .insertBookAuthor bookId authorId
  | .insertBookSubject bookId subject => .insertBookSubject bookId (Store.cut 500 subject)

/-- The values a database refuses, with its message. -/
abbrev Refusal := CatalogWrite → Option String

/-- A database that has no objection to any value. -/
def Refusal.never : Refusal := fun _ => none

/-- Send one statement to the catalog. -/
def CatalogWrite.send (refuse : Refusal) (write : CatalogWrite) (c : Catalog) :
    Except DbError Catalog :=
  match refuse write with
  | some message => .error (.dataError message)
  | none => write.cut.run c

inductive Write where
  | catalog (write : CatalogWrite)
  | insertJob (job : IngestionJob)
  | updateJob (job : IngestionJob)
  | insertLog (log : IngestionLog)
  | updateLog (log : IngestionLog)
  | insertReadingList (list : ReadingList)
  | updateReadingList (list : ReadingList)
  | deleteReadingListItems (readingListId : Uuid)
  | insertReadingListItem (item : ReadingListItem)
deriving DecidableEq, Repr

/-- Replace the row with the same id. -/
def replaceJob (job row : IngestionJob) : IngestionJob := if row.id = job.id then job else row

def replaceLog (log row : IngestionLog) : IngestionLog := if row.id = log.id then log else row

def replaceList (list row : ReadingList) : ReadingList :=
  if row.id = list.id then
    { row with
      patronNameHash := list.patronNameHash
      patronNameMasked := list.patronNameMasked }
  else row

@[simp] theorem replaceJob_id (job row : IngestionJob) : (replaceJob job row).id = row.id := by
  unfold replaceJob
  split
  · exact (‹row.id = job.id›).symm
  · rfl

@[simp] theorem replaceLog_id (log row : IngestionLog) : (replaceLog log row).id = row.id := by
  unfold replaceLog
  split
  · exact (‹row.id = log.id›).symm
  · rfl

theorem clash_of_replaceJob {job : IngestionJob} (a b : IngestionJob)
    (clash : (replaceJob job a).Clash (replaceJob job b)) : a.Clash b := by
  simpa [IngestionJob.Clash] using clash

theorem clash_of_replaceLog {log : IngestionLog} (a b : IngestionLog)
    (clash : (replaceLog log a).Clash (replaceLog log b)) : a.Clash b := by
  simpa [IngestionLog.Clash] using clash

@[simp] theorem replaceList_id (list row : ReadingList) : (replaceList list row).id = row.id := by
  unfold replaceList
  split <;> rfl

@[simp] theorem replaceList_tenantId (list row : ReadingList) :
    (replaceList list row).tenantId = row.tenantId := by
  unfold replaceList
  split <;> rfl

@[simp] theorem replaceList_emailHash (list row : ReadingList) :
    (replaceList list row).emailHash = row.emailHash := by
  unfold replaceList
  split <;> rfl

theorem clash_of_replaceList {list : ReadingList} (a b : ReadingList)
    (clash : (replaceList list a).Clash (replaceList list b)) : a.Clash b := by
  simpa [ReadingList.Clash] using clash

/-- A list as its columns keep it. A digest has no spaces, and is never cut. -/
def ReadingList.cut (list : ReadingList) : ReadingList :=
  { list with
    patronNameMasked := Store.cut 255 list.patronNameMasked
    emailMasked := Store.cut 255 list.emailMasked }

def ReadingListItem.cut (item : ReadingListItem) : ReadingListItem :=
  { item with
    olWorkKey := item.olWorkKey.map (Store.cut 50)
    isbn := item.isbn.map (Store.cut 20) }

/-- The texts of a reading list fit their columns. -/
def ReadingList.requireFits (list : ReadingList) : Except DbError Unit := do
  Store.requireFits 128 list.patronNameHash
  Store.requireFits 128 list.emailHash
  Store.requireFits 255 list.patronNameMasked
  Store.requireFits 255 list.emailMasked

def ReadingListItem.requireFits (item : ReadingListItem) : Except DbError Unit := do
  item.olWorkKey.forM (Store.requireFits 50)
  item.isbn.forM (Store.requireFits 20)

/-- The rows a reading-list item refers to exist. -/
def ReadingListItem.refersTo (item : ReadingListItem) (db : Database) : Bool :=
  db.readingLists.rows.any (·.id = item.readingListId) &&
    item.bookId.all fun bookId => db.catalog.books.rows.any (·.id = bookId)

/-- Send one statement to the database. -/
def Write.send (refuse : Refusal) : Write → Database → Except DbError Database
  | .catalog write, db => do
      let catalog ← write.send refuse db.catalog
      return { db with catalog }
  | .insertJob job, db => do
      -- a validated query has no more characters than its column
      requireFits 500 job.queryValue
      let jobs ← orUniqueViolation (db.jobs.insert job)
      return { db with jobs }
  | .updateJob job, db => .ok
      { db with jobs := db.jobs.modify (replaceJob job) clash_of_replaceJob }
  | .insertLog log, db => do
      let logs ← orUniqueViolation (db.logs.insert log)
      return { db with logs }
  | .updateLog log, db => .ok
      { db with logs := db.logs.modify (replaceLog log) clash_of_replaceLog }
  | .insertReadingList list, db => do
      list.cut.requireFits
      let readingLists ← orUniqueViolation (db.readingLists.insert list.cut)
      return { db with readingLists }
  | .updateReadingList list, db => do
      list.cut.requireFits
      return { db with
        readingLists := db.readingLists.modify (replaceList list.cut) clash_of_replaceList }
  | .deleteReadingListItems readingListId, db => .ok
      { db with
        readingListItems := db.readingListItems.delete (·.readingListId = readingListId) }
  | .insertReadingListItem item, db => do
      item.cut.requireFits
      if item.refersTo db then do
        let readingListItems ← orUniqueViolation (db.readingListItems.insert item.cut)
        return { db with readingListItems }
      else .error .foreignKeyViolation

end TenantLibrary.Store
