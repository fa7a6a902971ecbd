import Mathlib.Logic.Equiv.Defs
import TenantLibrary.Lib.Share
import TenantLibrary.Store.Statements

/-!
Renaming identifiers.

Which identifiers `uuid4` draws does not matter: when the identifiers of the rows are
exchanged for others one to one, the statements with the exchanged identifiers do the
same. Tenants keep their identifiers.
-/

namespace TenantLibrary.Store

open TenantLibrary.Lib

variable (ρ : Equiv.Perm Uuid)

/-! ### Rows -/

def Book.rename (b : Book) : Book := { b with id := ρ b.id }

def Author.rename (a : Author) : Author := { a with id := ρ a.id }

def BookAuthor.rename (l : BookAuthor) : BookAuthor := ⟨ρ l.bookId, ρ l.authorId⟩

def BookSubject.rename (s : BookSubject) : BookSubject := { s with bookId := ρ s.bookId }

def IngestionJob.rename (j : IngestionJob) : IngestionJob := { j with id := ρ j.id }

def IngestionLog.rename (l : IngestionLog) : IngestionLog :=
  { l with id := ρ l.id, jobId := l.jobId.map ρ }

def ReadingList.rename (l : ReadingList) : ReadingList := { l with id := ρ l.id }

def ReadingListItem.rename (i : ReadingListItem) : ReadingListItem :=
  { i with id := ρ i.id, readingListId := ρ i.readingListId, bookId := i.bookId.map ρ }

variable {ρ}

theorem Book.clash_rename (a b : Book) : (a.rename ρ).Clash (b.rename ρ) ↔ a.Clash b := by
  simp [Book.Clash, Book.rename]

theorem Author.clash_rename (a b : Author) : (a.rename ρ).Clash (b.rename ρ) ↔ a.Clash b := by
  simp [Author.Clash, Author.rename]

theorem BookAuthor.rename_inj (a b : BookAuthor) : a.rename ρ = b.rename ρ ↔ a = b := by
  cases a
  cases b
  simp [BookAuthor.rename]

theorem BookSubject.rename_inj (a b : BookSubject) : a.rename ρ = b.rename ρ ↔ a = b := by
  cases a
  cases b
  simp [BookSubject.rename]

theorem IngestionJob.clash_rename (a b : IngestionJob) :
    (a.rename ρ).Clash (b.rename ρ) ↔ a.Clash b := by
  simp [IngestionJob.Clash, IngestionJob.rename]

theorem IngestionLog.clash_rename (a b : IngestionLog) :
    (a.rename ρ).Clash (b.rename ρ) ↔ a.Clash b := by
  simp [IngestionLog.Clash, IngestionLog.rename]

theorem ReadingList.clash_rename (a b : ReadingList) :
    (a.rename ρ).Clash (b.rename ρ) ↔ a.Clash b := by
  simp [ReadingList.Clash, ReadingList.rename]

theorem ReadingList.rename_inj (a b : ReadingList) : a.rename ρ = b.rename ρ ↔ a = b := by
  cases a
  cases b
  simp [ReadingList.rename]

theorem ReadingListItem.clash_rename (a b : ReadingListItem) :
    (a.rename ρ).Clash (b.rename ρ) ↔ a.Clash b := by
  simp [ReadingListItem.Clash, ReadingListItem.rename]

variable (ρ)

/-! ### Tables -/

def Catalog.rename (c : Catalog) : Catalog where
  books := c.books.modify (Book.rename ρ) fun a b => (Book.clash_rename a b).mp
  authors := c.authors.modify (Author.rename ρ) fun a b => (Author.clash_rename a b).mp
  bookAuthors := c.bookAuthors.modify (BookAuthor.rename ρ) fun a b =>
    (BookAuthor.rename_inj a b).mp
  bookSubjects := c.bookSubjects.modify (BookSubject.rename ρ) fun a b =>
    (BookSubject.rename_inj a b).mp

def Database.rename (db : Database) : Database where
  catalog := db.catalog.rename ρ
  jobs := db.jobs.modify (IngestionJob.rename ρ) fun a b => (IngestionJob.clash_rename a b).mp
  logs := db.logs.modify (IngestionLog.rename ρ) fun a b => (IngestionLog.clash_rename a b).mp
  readingLists := db.readingLists.modify (ReadingList.rename ρ) fun a b =>
    (ReadingList.clash_rename a b).mp
  readingListItems := db.readingListItems.modify (ReadingListItem.rename ρ) fun a b =>
    (ReadingListItem.clash_rename a b).mp

/-! ### Statements -/

def CatalogWrite.rename : CatalogWrite → CatalogWrite
  | .insertBook id tenantId olWorkKey values => .insertBook (ρ id) tenantId olWorkKey values
  | .updateBook id values => .updateBook (ρ id) values
  | .insertAuthor id tenantId olAuthorKey name => .insertAuthor (ρ id) tenantId olAuthorKey name
  | .insertBookAuthor bookId authorId => .insertBookAuthor (ρ bookId) (ρ authorId)
  | .insertBookSubject bookId subject => .insertBookSubject (ρ bookId) subject

def Write.rename : Write → Write
  | .catalog write => .catalog (write.rename ρ)
  | .insertJob job => .insertJob (job.rename ρ)
  | .updateJob job => .updateJob (job.rename ρ)
  | .insertLog log => .insertLog (log.rename ρ)
  | .updateLog log => .updateLog (log.rename ρ)
  | .insertReadingList list => .insertReadingList (list.rename ρ)
  | .updateReadingList list => .updateReadingList (list.rename ρ)
  | .deleteReadingListItems readingListId => .deleteReadingListItems (ρ readingListId)
  | .insertReadingListItem item => .insertReadingListItem (item.rename ρ)

/-- What refuses the renamed statements. -/
def Refusal.rename (refuse : Refusal) : Refusal := fun write => refuse (write.rename ρ.symm)

theorem Refusal.rename_apply (refuse : Refusal) (write : CatalogWrite) :
    refuse.rename ρ (write.rename ρ) = refuse write := by
  cases write <;> simp [Refusal.rename, CatalogWrite.rename]

/-- Renaming as a view of the whole database. -/
def renamed : Share Database Write where
  view := Database.rename ρ
  translate := Write.rename ρ
  Inv _ := True
  Owns _ := True

theorem any_rename {α : Type} (rename : α → α) (key : α → Uuid)
    (follows : ∀ a, key (rename a) = ρ (key a)) (rows : List α) (id : Uuid) :
    ((rows.map rename).any fun a => key a = ρ id) = rows.any fun a => key a = id := by
  rw [List.any_map]
  congr 1
  funext a
  simp [follows]

theorem Book.assign_rename (id : Uuid) (values : BookValues) (title : String) (b : Book) :
    (b.rename ρ).assign (ρ id) values title = (b.assign id values title).rename ρ := by
  by_cases same : b.id = id
  · simp [Book.assign, Book.rename, same]
  · simp [Book.assign, Book.rename, same]

theorem CatalogWrite.run_rename (write : CatalogWrite) (c : Catalog) :
    (write.rename ρ).run (c.rename ρ) = (write.run c).map (Catalog.rename ρ) := by
  cases write with
  | insertBook id tenantId olWorkKey values =>
      simp only [CatalogWrite.rename, CatalogWrite.run]
      cases values.title with
      | none => rfl
      | some title =>
          have row : newBook (ρ id) tenantId olWorkKey values title =
              (newBook id tenantId olWorkKey values title).rename ρ := rfl
          simp only [Catalog.rename, row, Table.insert_modify Book.clash_rename]
          cases c.books.insert (newBook id tenantId olWorkKey values title) <;> rfl
  | updateBook id values =>
      simp only [CatalogWrite.rename, CatalogWrite.run]
      cases values.title with
      | none => rfl
      | some title =>
          apply congrArg Except.ok
          simp only [Catalog.rename]
          congr 1
          exact Table.modify_modify (Book.assign_rename ρ id values title)
  | insertAuthor id tenantId olAuthorKey name =>
      cases name with
      | none => rfl
      | some name =>
          have row : (⟨ρ id, tenantId, olAuthorKey, name⟩ : Author) =
              Author.rename ρ ⟨id, tenantId, olAuthorKey, name⟩ := rfl
          simp only [CatalogWrite.rename, CatalogWrite.run, Catalog.rename, row,
            Table.insert_modify Author.clash_rename]
          cases c.authors.insert ⟨id, tenantId, olAuthorKey, name⟩ <;> rfl
  | insertBookAuthor bookId authorId =>
      have row : (⟨ρ bookId, ρ authorId⟩ : BookAuthor) =
          BookAuthor.rename ρ ⟨bookId, authorId⟩ := rfl
      simp only [CatalogWrite.rename, CatalogWrite.run, Catalog.rename, row, Table.rows_modify,
        any_rename ρ (Book.rename ρ) Book.id fun _ => rfl,
        any_rename ρ (Author.rename ρ) Author.id fun _ => rfl,
        Table.insert_modify BookAuthor.rename_inj]
      split
      · cases c.bookAuthors.insert ⟨bookId, authorId⟩ <;> rfl
      · rfl
  | insertBookSubject bookId subject =>
      have row : (⟨ρ bookId, subject⟩ : BookSubject) = BookSubject.rename ρ ⟨bookId, subject⟩ := rfl
      simp only [CatalogWrite.rename, CatalogWrite.run, Catalog.rename, row, Table.rows_modify,
        any_rename ρ (Book.rename ρ) Book.id fun _ => rfl,
        Table.insert_modify BookSubject.rename_inj]
      split
      · cases c.bookSubjects.insert ⟨bookId, subject⟩ <;> rfl
      · rfl

theorem CatalogWrite.cut_rename (write : CatalogWrite) :
    (write.rename ρ).cut = write.cut.rename ρ := by
  cases write <;> rfl

theorem CatalogWrite.send_rename (refuse : Refusal) (write : CatalogWrite) (c : Catalog) :
    (write.rename ρ).send (refuse.rename ρ) (c.rename ρ) =
      (write.send refuse c).map (Catalog.rename ρ) := by
  unfold CatalogWrite.send
  rw [Refusal.rename_apply]
  cases refuse write with
  | none =>
      dsimp only
      rw [write.cut_rename]
      exact write.cut.run_rename ρ c
  | some message => rfl

theorem replaceJob_rename (job row : IngestionJob) :
    replaceJob (job.rename ρ) (row.rename ρ) = (replaceJob job row).rename ρ := by
  by_cases same : row.id = job.id
  · simp [replaceJob, IngestionJob.rename, same]
  · simp [replaceJob, IngestionJob.rename, same]

theorem replaceLog_rename (log row : IngestionLog) :
    replaceLog (log.rename ρ) (row.rename ρ) = (replaceLog log row).rename ρ := by
  by_cases same : row.id = log.id
  · simp [replaceLog, IngestionLog.rename, same]
  · simp [replaceLog, IngestionLog.rename, same]

theorem replaceList_rename (list row : ReadingList) :
    replaceList (list.rename ρ) (row.rename ρ) = (replaceList list row).rename ρ := by
  by_cases same : row.id = list.id
  · simp [replaceList, ReadingList.rename, same]
  · simp [replaceList, ReadingList.rename, same]

theorem refersTo_rename (item : ReadingListItem) (db : Database) :
    (item.rename ρ).refersTo (db.rename ρ) = item.refersTo db := by
  have lists := any_rename ρ (ReadingList.rename ρ) ReadingList.id (fun _ => rfl)
    db.readingLists.rows item.readingListId
  have books := any_rename ρ (Book.rename ρ) Book.id (fun _ => rfl) db.catalog.books.rows
  refine congrArg₂ (· && ·) lists ?_
  cases points : item.bookId with
  | none => simp [ReadingListItem.rename, points]
  | some bookId =>
      simpa [ReadingListItem.rename, Database.rename, Catalog.rename, points] using books bookId

theorem ReadingList.cut_rename (list : ReadingList) :
    (list.rename ρ).cut = list.cut.rename ρ := rfl

theorem ReadingListItem.cut_rename (item : ReadingListItem) :
    (item.rename ρ).cut = item.cut.rename ρ := rfl

theorem Write.send_rename (refuse : Refusal) (write : Write) (db : Database) :
    (write.rename ρ).send (refuse.rename ρ) (db.rename ρ) =
      (write.send refuse db).map (Database.rename ρ) := by
  cases write with
  | catalog write =>
      simp only [Write.rename, Write.send, Database.rename, CatalogWrite.send_rename]
      cases write.send refuse db.catalog <;> rfl
  | insertJob job =>
      have fits : (job.rename ρ).queryValue = job.queryValue := rfl
      simp only [Write.rename, Write.send, Database.rename, fits,
        Table.insert_modify IngestionJob.clash_rename]
      cases requireFits 500 job.queryValue with
      | error e => rfl
      | ok _ => cases db.jobs.insert job <;> rfl
  | updateJob job =>
      apply congrArg Except.ok
      simp only [Database.rename]
      congr 1
      exact Table.modify_modify (replaceJob_rename ρ job)
  | insertLog log =>
      simp only [Write.rename, Write.send, Database.rename,
        Table.insert_modify IngestionLog.clash_rename]
      cases db.logs.insert log <;> rfl
  | updateLog log =>
      apply congrArg Except.ok
      simp only [Database.rename]
      congr 1
      exact Table.modify_modify (replaceLog_rename ρ log)
  | insertReadingList list =>
      have fits : (list.cut.rename ρ).requireFits = list.cut.requireFits := rfl
      simp only [Write.rename, Write.send, Database.rename, ReadingList.cut_rename, fits,
        Table.insert_modify ReadingList.clash_rename]
      cases list.cut.requireFits with
      | error e => rfl
      | ok _ => cases db.readingLists.insert list.cut <;> rfl
  | updateReadingList list =>
      have fits : (list.cut.rename ρ).requireFits = list.cut.requireFits := rfl
      simp only [Write.rename, Write.send, ReadingList.cut_rename, fits]
      cases list.cut.requireFits with
      | error e => rfl
      | ok _ =>
          apply congrArg Except.ok
          simp only [Database.rename]
          congr 1
          exact Table.modify_modify (replaceList_rename ρ list.cut)
  | deleteReadingListItems readingListId =>
      apply congrArg Except.ok
      simp only [Database.rename]
      congr 1
      apply Table.delete_modify
      intro item
      simp [ReadingListItem.rename]
  | insertReadingListItem item =>
      have fits : (item.cut.rename ρ).requireFits = item.cut.requireFits := rfl
      simp only [Write.rename, Write.send, ReadingListItem.cut_rename, fits, refersTo_rename]
      cases item.cut.requireFits with
      | error e => rfl
      | ok _ =>
          by_cases there : item.refersTo db
          · simp only [there, if_true, Database.rename,
              Table.insert_modify ReadingListItem.clash_rename]
            cases db.readingListItems.insert item.cut <;> rfl
          · simp only [there]
            rfl

/-- The store does the same under other names. -/
theorem renames (refuse : Refusal) :
    (renamed ρ).Sends (Write.send refuse) (Write.send (refuse.rename ρ)) :=
  fun write db _ _ => ⟨write.send_rename ρ refuse db, fun _ _ => trivial⟩

end TenantLibrary.Store
