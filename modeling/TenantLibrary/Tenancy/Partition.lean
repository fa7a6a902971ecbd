import TenantLibrary.Lib.Share
import TenantLibrary.Store.Statements

/-!
The rows of one tenant.

Links, subjects and reading-list items carry no tenant. What separates the tenants is
that no identifier is drawn for two of them: `owner` says for which tenant an identifier
was drawn, and in a partitioned database every row has the identifiers of one tenant
only. Then the rows of a tenant are a share of the database: the statements with the
tenant's identifiers do on these rows what they do on the whole database, and leave the
rows of the other tenants alone.
-/

namespace TenantLibrary.Tenancy

open TenantLibrary.Lib TenantLibrary.Lib.Share TenantLibrary.Store

variable (owner : Uuid → Uuid) (tenantId : Uuid)

/-! ### The share -/

def restrictCatalog (c : Catalog) : Catalog where
  books := c.books.filter fun b => owner b.id = tenantId
  authors := c.authors.filter fun a => owner a.id = tenantId
  bookAuthors := c.bookAuthors.filter fun l => owner l.bookId = tenantId
  bookSubjects := c.bookSubjects.filter fun s => owner s.bookId = tenantId

/-- The rows of a tenant. -/
def restrict (db : Database) : Database where
  catalog := restrictCatalog owner tenantId db.catalog
  jobs := db.jobs.filter fun j => owner j.id = tenantId
  logs := db.logs.filter fun l => owner l.id = tenantId
  readingLists := db.readingLists.filter fun l => owner l.id = tenantId
  readingListItems := db.readingListItems.filter fun i => owner i.readingListId = tenantId

/-- The rows a link refers to exist. -/
def RefersTo (l : BookAuthor) (c : Catalog) : Prop :=
  (∃ b ∈ c.books.rows, b.id = l.bookId) ∧ ∃ a ∈ c.authors.rows, a.id = l.authorId

structure PartitionedCatalog (c : Catalog) : Prop where
  books : ∀ b ∈ c.books.rows, owner b.id = b.tenantId
  authors : ∀ a ∈ c.authors.rows, owner a.id = a.tenantId
  links : ∀ l ∈ c.bookAuthors.rows, owner l.authorId = owner l.bookId ∧ RefersTo l c
  subjects : ∀ s ∈ c.bookSubjects.rows, ∃ b ∈ c.books.rows, b.id = s.bookId

/-- The identifiers of an item are of one tenant. -/
def PartitionedItem (i : ReadingListItem) : Prop :=
  owner i.id = owner i.readingListId ∧
    ∀ bookId, i.bookId = some bookId → owner bookId = owner i.readingListId

/-- Every row has the identifiers of one tenant, and what it refers to exists. -/
structure Partitioned (db : Database) : Prop where
  catalog : PartitionedCatalog owner db.catalog
  jobs : ∀ j ∈ db.jobs.rows, owner j.id = j.tenantId
  logs : ∀ l ∈ db.logs.rows, owner l.id = l.tenantId
  lists : ∀ l ∈ db.readingLists.rows, owner l.id = l.tenantId
  items : ∀ i ∈ db.readingListItems.rows, PartitionedItem owner i ∧ i.refersTo db

/-- The statement has the tenant's identifiers only. -/
def OwnsCatalog : CatalogWrite → Prop
  | .insertBook id t _ _ => owner id = tenantId ∧ t = tenantId
  | .updateBook id _ => owner id = tenantId
  | .insertAuthor id t _ _ => owner id = tenantId ∧ t = tenantId
  | .insertBookAuthor bookId authorId => owner bookId = tenantId ∧ owner authorId = tenantId
  | .insertBookSubject bookId _ => owner bookId = tenantId

def Owns : Write → Prop
  | .catalog write => OwnsCatalog owner tenantId write
  | .insertJob job => owner job.id = tenantId ∧ job.tenantId = tenantId
  | .updateJob job => owner job.id = tenantId ∧ job.tenantId = tenantId
  | .insertLog log => owner log.id = tenantId ∧ log.tenantId = tenantId
  | .updateLog log => owner log.id = tenantId ∧ log.tenantId = tenantId
  | .insertReadingList list => owner list.id = tenantId ∧ list.tenantId = tenantId
  | .updateReadingList list => owner list.id = tenantId
  | .deleteReadingListItems readingListId => owner readingListId = tenantId
  | .insertReadingListItem item =>
      owner item.id = tenantId ∧ owner item.readingListId = tenantId ∧
        ∀ bookId, item.bookId = some bookId → owner bookId = tenantId

/-- The tenant's rows as a share of the databases that have the other tenants' rows of
`before`. -/
def share (before : Database) : Share Database Write :=
  .among (restrict owner) (Partitioned owner) tenantId (Owns owner tenantId) before

/-! ### Statements on the catalog -/

variable {owner tenantId}

/-- A row looked for by an identifier of the tenant is one of the tenant's. -/
theorem any_filter {α : Type} {rows : List α} {keep condition : α → Bool}
    (near : ∀ a ∈ rows, condition a = true → keep a = true) :
    (rows.filter keep).any condition = rows.any condition := by
  rw [Bool.eq_iff_iff, List.any_eq_true, List.any_eq_true]
  constructor
  · rintro ⟨a, mem, holds⟩
    exact ⟨a, (List.mem_filter.mp mem).1, holds⟩
  · rintro ⟨a, mem, holds⟩
    exact ⟨a, List.mem_filter.mpr ⟨mem, near a mem holds⟩, holds⟩

theorem any_id_filter {α : Type} {rows : List α} {key : α → Uuid} {id : Uuid}
    (own : owner id = tenantId) :
    (rows.filter fun a => owner (key a) = tenantId).any (fun a => key a = id) =
      rows.any fun a => key a = id := by
  apply any_filter
  intro a _ same
  rw [decide_eq_true_eq] at same ⊢
  rw [same, own]

section Table

variable {Row : Type} {Clash : Row → Row → Prop} {t u : Table Row Clash} {row : Row}
  {change : Row → Row} {keeps : ∀ a b, Clash (change a) (change b) → Clash a b} (key : Row → Uuid)

/-- A tenant's row is inserted among the tenant's rows as among all. -/
theorem insert_owned [DecidableRel Clash] (own : owner (key row) = tenantId)
    (near : ∀ a ∈ t.rows, Clash a row → owner (key a) = tenantId) :
    (t.filter fun a => owner (key a) = tenantId).insert row =
      (t.insert row).map (·.filter fun a => owner (key a) = tenantId) :=
  Table.filter_insert (decide_eq_true own) fun a mem clash => decide_eq_true (near a mem clash)

theorem insert_hidden [DecidableRel Clash] (own : owner (key row) = tenantId)
    (inserted : t.insert row = some u) {other : Uuid} (different : other ≠ tenantId) :
    (u.filter fun a => owner (key a) = other) = t.filter fun a => owner (key a) = other :=
  Table.filter_insert_of_not (decide_eq_false (own ▸ different.symm)) inserted

theorem modify_owned (stable : ∀ a, key (change a) = key a) (one : Uuid) :
    ((t.modify change keeps).filter fun a => owner (key a) = one) =
      (t.filter fun a => owner (key a) = one).modify change keeps :=
  Table.filter_modify fun a => by rw [stable]

theorem modify_hidden (stable : ∀ a, key (change a) = key a)
    (same : ∀ a, owner (key a) ≠ tenantId → change a = a) {other : Uuid}
    (different : other ≠ tenantId) :
    ((t.modify change keeps).filter fun a => owner (key a) = other) =
      t.filter fun a => owner (key a) = other :=
  Table.filter_modify_of_not (fun a => by rw [stable]) fun a own =>
    same a (of_decide_eq_true own ▸ different)

end Table

section Catalog

variable {c : Catalog} (sound : PartitionedCatalog owner c)
include sound

theorem respects_insertBook {id t : Uuid} {olWorkKey : String} {values : BookValues}
    (own : owner id = tenantId ∧ t = tenantId) :
    Respects (restrictCatalog owner) (PartitionedCatalog owner) tenantId
      (CatalogWrite.insertBook id t olWorkKey values).run c := by
  obtain ⟨own, rfl⟩ := own
  refine ⟨?_, fun after sent => ?_, fun after sent other different => ?_⟩
  · rw [CatalogWrite.run, CatalogWrite.run]
    cases values.title with
    | none => rfl
    | some title =>
        have near : ∀ a ∈ c.books.rows,
            a.Clash (newBook id t olWorkKey values title) → owner a.id = t := by
          rintro a mem (sameId | ⟨sameTenant, _⟩)
          · exact (congrArg owner sameId).trans own
          · exact (sound.books a mem).trans sameTenant
        simp only [restrictCatalog, insert_owned Book.id own near]
        cases c.books.insert (newBook id t olWorkKey values title) <;> rfl
  · obtain ⟨title, _, books, inserted, rfl⟩ := run_insertBook.mp sent
    refine ⟨fun b mem => ?_, sound.authors, fun l mem => ?_, fun s mem => ?_⟩
    · rcases Table.mem_insert inserted mem with old | rfl
      · exact sound.books b old
      · exact own
    · obtain ⟨same, ⟨b, old, id⟩, author⟩ := sound.links l mem
      exact ⟨same, ⟨b, Table.mem_insert_of_mem inserted old, id⟩, author⟩
    · obtain ⟨b, old, id⟩ := sound.subjects s mem
      exact ⟨b, Table.mem_insert_of_mem inserted old, id⟩
  · obtain ⟨title, _, books, inserted, rfl⟩ := run_insertBook.mp sent
    simp only [restrictCatalog, insert_hidden Book.id own inserted different]

theorem respects_updateBook {id : Uuid} {values : BookValues} (own : owner id = tenantId) :
    Respects (restrictCatalog owner) (PartitionedCatalog owner) tenantId
      (CatalogWrite.updateBook id values).run c := by
  refine ⟨?_, fun after sent => ?_, fun after sent other different => ?_⟩
  · rw [CatalogWrite.run, CatalogWrite.run]
    cases values.title with
    | none => rfl
    | some title =>
        simp only [restrictCatalog, Except.map,
          modify_owned Book.id (Book.assign_id id values title)]
  · obtain ⟨title, _, rfl⟩ := run_updateBook.mp sent
    refine ⟨fun b mem => ?_, sound.authors, fun l mem => ?_, fun s mem => ?_⟩
    · obtain ⟨row, rowMem, rfl⟩ := List.mem_map.mp mem
      rw [Book.assign_id, Book.assign_tenantId]
      exact sound.books row rowMem
    · obtain ⟨same, ⟨b, old, id⟩, author⟩ := sound.links l mem
      exact ⟨same, ⟨_, List.mem_map_of_mem old, (Book.assign_id ..).trans id⟩, author⟩
    · obtain ⟨b, old, id⟩ := sound.subjects s mem
      exact ⟨_, List.mem_map_of_mem old, (Book.assign_id ..).trans id⟩
  · obtain ⟨title, _, rfl⟩ := run_updateBook.mp sent
    have same : ∀ b : Book, owner b.id ≠ tenantId → b.assign id values title = b := fun b notOwn =>
      if_neg fun sameId => notOwn ((congrArg owner sameId).trans own)
    simp only [restrictCatalog,
      modify_hidden Book.id (Book.assign_id id values title) same different]

theorem respects_insertAuthor {id t : Uuid} {olAuthorKey : String} {name : Option String}
    (own : owner id = tenantId ∧ t = tenantId) :
    Respects (restrictCatalog owner) (PartitionedCatalog owner) tenantId
      (CatalogWrite.insertAuthor id t olAuthorKey name).run c := by
  obtain ⟨own, rfl⟩ := own
  refine ⟨?_, fun after sent => ?_, fun after sent other different => ?_⟩
  · cases name with
    | none => rfl
    | some name =>
        have near : ∀ a ∈ c.authors.rows,
            a.Clash ⟨id, t, olAuthorKey, name⟩ → owner a.id = t := by
          rintro a mem (sameId | ⟨sameTenant, _⟩)
          · exact (congrArg owner sameId).trans own
          · exact (sound.authors a mem).trans sameTenant
        simp only [CatalogWrite.run, restrictCatalog, insert_owned Author.id own near]
        cases c.authors.insert ⟨id, t, olAuthorKey, name⟩ <;> rfl
  · obtain ⟨name, _, authors, inserted, rfl⟩ := run_insertAuthor.mp sent
    refine ⟨sound.books, fun a mem => ?_, fun l mem => ?_, sound.subjects⟩
    · rcases Table.mem_insert inserted mem with old | rfl
      · exact sound.authors a old
      · exact own
    · obtain ⟨same, book, a, old, id⟩ := sound.links l mem
      exact ⟨same, book, a, Table.mem_insert_of_mem inserted old, id⟩
  · obtain ⟨name, _, authors, inserted, rfl⟩ := run_insertAuthor.mp sent
    simp only [restrictCatalog, insert_hidden Author.id own inserted different]

theorem respects_insertBookAuthor {bookId authorId : Uuid}
    (own : owner bookId = tenantId ∧ owner authorId = tenantId) :
    Respects (restrictCatalog owner) (PartitionedCatalog owner) tenantId
      (CatalogWrite.insertBookAuthor bookId authorId).run c := by
  obtain ⟨ownBook, ownAuthor⟩ := own
  refine ⟨?_, fun after sent => ?_, fun after sent other different => ?_⟩
  · have near : ∀ l ∈ c.bookAuthors.rows, l = ⟨bookId, authorId⟩ → owner l.bookId = tenantId := by
      rintro l _ rfl
      exact ownBook
    simp only [CatalogWrite.run, restrictCatalog, Table.rows_filter, any_id_filter ownBook,
      any_id_filter ownAuthor, insert_owned BookAuthor.bookId ownBook near]
    split
    · cases c.bookAuthors.insert ⟨bookId, authorId⟩ <;> rfl
    · rfl
  · obtain ⟨book, author, links, inserted, rfl⟩ := run_insertBookAuthor.mp sent
    refine ⟨sound.books, sound.authors, fun l mem => ?_, sound.subjects⟩
    rcases Table.mem_insert inserted mem with old | rfl
    · exact sound.links l old
    · exact ⟨ownAuthor.trans ownBook.symm, book, author⟩
  · obtain ⟨_, _, links, inserted, rfl⟩ := run_insertBookAuthor.mp sent
    simp only [restrictCatalog, insert_hidden BookAuthor.bookId ownBook inserted different]

theorem respects_insertBookSubject {bookId : Uuid} {subject : String}
    (own : owner bookId = tenantId) :
    Respects (restrictCatalog owner) (PartitionedCatalog owner) tenantId
      (CatalogWrite.insertBookSubject bookId subject).run c := by
  refine ⟨?_, fun after sent => ?_, fun after sent other different => ?_⟩
  · have near : ∀ s ∈ c.bookSubjects.rows, s = ⟨bookId, subject⟩ → owner s.bookId = tenantId := by
      rintro s _ rfl
      exact own
    simp only [CatalogWrite.run, restrictCatalog, Table.rows_filter, any_id_filter own,
      insert_owned BookSubject.bookId own near]
    split
    · cases c.bookSubjects.insert ⟨bookId, subject⟩ <;> rfl
    · rfl
  · obtain ⟨book, subjects, inserted, rfl⟩ := run_insertBookSubject.mp sent
    refine ⟨sound.books, sound.authors, sound.links, fun s mem => ?_⟩
    rcases Table.mem_insert inserted mem with old | rfl
    · exact sound.subjects s old
    · exact book
  · obtain ⟨_, subjects, inserted, rfl⟩ := run_insertBookSubject.mp sent
    simp only [restrictCatalog, insert_hidden BookSubject.bookId own inserted different]

/-- Every statement with the tenant's identifiers. -/
theorem respects_catalogWrite (refuse : Refusal) {write : CatalogWrite}
    (owned : OwnsCatalog owner tenantId write) :
    Respects (restrictCatalog owner) (PartitionedCatalog owner) tenantId (write.send refuse) c := by
  have run : Respects (restrictCatalog owner) (PartitionedCatalog owner) tenantId
      write.cut.run c := by
    cases write with
    | insertBook id t olWorkKey values => exact respects_insertBook sound owned
    | updateBook id values => exact respects_updateBook sound owned
    | insertAuthor id t olAuthorKey name => exact respects_insertAuthor sound owned
    | insertBookAuthor bookId authorId => exact respects_insertBookAuthor sound owned
    | insertBookSubject bookId subject => exact respects_insertBookSubject sound owned
  refine ⟨?_, fun after sent => run.kept after (send_eq_ok.mp sent).2,
    fun after sent => run.others after (send_eq_ok.mp sent).2⟩
  unfold CatalogWrite.send
  cases refuse write with
  | some message => rfl
  | none => exact run.seen

end Catalog

/-! ### Statements on the database -/

/-- No statement takes a book away. -/
theorem book_kept {refuse : Refusal} {c after : Catalog} {write : CatalogWrite}
    (sent : write.send refuse c = .ok after) {b : Book} (mem : b ∈ c.books.rows) :
    ∃ a ∈ after.books.rows, a.id = b.id := by
  have ran := (send_eq_ok.mp sent).2
  cases write with
  | insertBook id t olWorkKey values =>
      obtain ⟨_, _, _, inserted, rfl⟩ := run_insertBook.mp ran
      exact ⟨b, Table.mem_insert_of_mem inserted mem, rfl⟩
  | updateBook id values =>
      obtain ⟨title, _, rfl⟩ := run_updateBook.mp ran
      exact ⟨_, List.mem_map_of_mem mem, Book.assign_id id values.cut title b⟩
  | insertAuthor id t olAuthorKey name =>
      obtain ⟨_, _, _, _, rfl⟩ := run_insertAuthor.mp ran
      exact ⟨b, mem, rfl⟩
  | insertBookAuthor bookId authorId =>
      obtain ⟨_, _, _, _, rfl⟩ := run_insertBookAuthor.mp ran
      exact ⟨b, mem, rfl⟩
  | insertBookSubject bookId subject =>
      obtain ⟨_, _, _, rfl⟩ := run_insertBookSubject.mp ran
      exact ⟨b, mem, rfl⟩

theorem refersTo_iff {i : ReadingListItem} {db : Database} :
    i.refersTo db ↔ (∃ l ∈ db.readingLists.rows, l.id = i.readingListId) ∧
      ∀ bookId, i.bookId = some bookId → ∃ b ∈ db.catalog.books.rows, b.id = bookId := by
  simp [ReadingListItem.refersTo, Option.all_eq_true]

/-- An item refers to what it referred to while no list and no book is taken away. -/
theorem refersTo_mono {i : ReadingListItem} {db after : Database} (refers : i.refersTo db)
    (lists : ∀ l ∈ db.readingLists.rows, ∃ a ∈ after.readingLists.rows, a.id = l.id)
    (books : ∀ b ∈ db.catalog.books.rows, ∃ a ∈ after.catalog.books.rows, a.id = b.id) :
    i.refersTo after := by
  obtain ⟨⟨l, listMem, listId⟩, book⟩ := refersTo_iff.mp refers
  refine refersTo_iff.mpr ⟨?_, fun bookId pointed => ?_⟩
  · obtain ⟨a, mem, same⟩ := lists l listMem
    exact ⟨a, mem, same.trans listId⟩
  · obtain ⟨b, bookMem, bookSame⟩ := book bookId pointed
    obtain ⟨a, mem, same⟩ := books b bookMem
    exact ⟨a, mem, same.trans bookSame⟩

section Database

variable {refuse : Refusal} {db : Database} (sound : Partitioned owner db)
include sound

theorem respects_catalog {write : CatalogWrite} (owned : OwnsCatalog owner tenantId write) :
    Respects (restrict owner) (Partitioned owner) tenantId ((Write.catalog write).send refuse)
      db := by
  have one := respects_catalogWrite sound.catalog refuse owned
  refine ⟨?_, fun after sent => ?_, fun after sent other different => ?_⟩
  · simp only [Write.send, restrict, one.seen]
    cases write.send refuse db.catalog <;> rfl
  · obtain ⟨catalog, ran, made⟩ := bind_eq_ok.mp sent
    obtain rfl := Except.ok.inj made
    refine { sound with catalog := one.kept catalog ran, items := fun i mem => ?_ }
    obtain ⟨partitioned, refers⟩ := sound.items i mem
    refine ⟨partitioned, refersTo_mono refers (fun l mem => ⟨l, mem, rfl⟩) ?_⟩
    exact fun b mem => book_kept ran mem
  · obtain ⟨catalog, ran, made⟩ := bind_eq_ok.mp sent
    obtain rfl := Except.ok.inj made
    simp only [restrict, one.others catalog ran other different]

theorem respects_insertJob {job : IngestionJob}
    (own : owner job.id = tenantId ∧ job.tenantId = tenantId) :
    Respects (restrict owner) (Partitioned owner) tenantId ((Write.insertJob job).send refuse)
      db := by
  refine Respects.guard ⟨?_, fun after sent => ?_, fun after sent other different => ?_⟩
  · have near : ∀ a ∈ db.jobs.rows, a.Clash job → owner a.id = tenantId := fun a _ sameId =>
      (congrArg owner sameId).trans own.1
    simp only [restrict, insert_owned IngestionJob.id own.1 near]
    cases db.jobs.insert job <;> rfl
  · obtain ⟨jobs, inserted, made⟩ := bind_eq_ok.mp sent
    obtain rfl := Except.ok.inj made
    refine { sound with jobs := fun j mem => ?_ }
    rcases Table.mem_insert (orUniqueViolation_eq_ok.mp inserted) mem with old | rfl
    · exact sound.jobs j old
    · exact own.1.trans own.2.symm
  · obtain ⟨jobs, inserted, made⟩ := bind_eq_ok.mp sent
    obtain rfl := Except.ok.inj made
    simp only [restrict,
      insert_hidden IngestionJob.id own.1 (orUniqueViolation_eq_ok.mp inserted) different]

theorem respects_insertLog {log : IngestionLog}
    (own : owner log.id = tenantId ∧ log.tenantId = tenantId) :
    Respects (restrict owner) (Partitioned owner) tenantId ((Write.insertLog log).send refuse)
      db := by
  refine ⟨?_, fun after sent => ?_, fun after sent other different => ?_⟩
  · have near : ∀ a ∈ db.logs.rows, a.Clash log → owner a.id = tenantId := fun a _ sameId =>
      (congrArg owner sameId).trans own.1
    simp only [Write.send, restrict, insert_owned IngestionLog.id own.1 near]
    cases db.logs.insert log <;> rfl
  · obtain ⟨logs, inserted, made⟩ := bind_eq_ok.mp sent
    obtain rfl := Except.ok.inj made
    refine { sound with logs := fun l mem => ?_ }
    rcases Table.mem_insert (orUniqueViolation_eq_ok.mp inserted) mem with old | rfl
    · exact sound.logs l old
    · exact own.1.trans own.2.symm
  · obtain ⟨logs, inserted, made⟩ := bind_eq_ok.mp sent
    obtain rfl := Except.ok.inj made
    simp only [restrict,
      insert_hidden IngestionLog.id own.1 (orUniqueViolation_eq_ok.mp inserted) different]

theorem respects_insertReadingList {list : ReadingList}
    (own : owner list.id = tenantId ∧ list.tenantId = tenantId) :
    Respects (restrict owner) (Partitioned owner) tenantId
      ((Write.insertReadingList list).send refuse) db := by
  have own : owner list.cut.id = tenantId ∧ list.cut.tenantId = tenantId := own
  refine Respects.guard ⟨?_, fun after sent => ?_, fun after sent other different => ?_⟩
  · have near : ∀ a ∈ db.readingLists.rows, a.Clash list.cut → owner a.id = tenantId := by
      rintro a mem (sameId | ⟨sameTenant, _⟩)
      · exact (congrArg owner sameId).trans own.1
      · exact (sound.lists a mem).trans (sameTenant.trans own.2)
    simp only [restrict, insert_owned ReadingList.id own.1 near]
    cases db.readingLists.insert list.cut <;> rfl
  · obtain ⟨lists, inserted, made⟩ := bind_eq_ok.mp sent
    obtain rfl := Except.ok.inj made
    have inserted := orUniqueViolation_eq_ok.mp inserted
    refine { sound with lists := fun l mem => ?_, items := fun i mem => ?_ }
    · rcases Table.mem_insert inserted mem with old | rfl
      · exact sound.lists l old
      · exact own.1.trans own.2.symm
    · obtain ⟨partitioned, refers⟩ := sound.items i mem
      refine ⟨partitioned, refersTo_mono refers ?_ fun b mem => ⟨b, mem, rfl⟩⟩
      exact fun l mem => ⟨l, Table.mem_insert_of_mem inserted mem, rfl⟩
  · obtain ⟨lists, inserted, made⟩ := bind_eq_ok.mp sent
    obtain rfl := Except.ok.inj made
    simp only [restrict,
      insert_hidden ReadingList.id own.1 (orUniqueViolation_eq_ok.mp inserted) different]

theorem respects_updateJob {job : IngestionJob}
    (own : owner job.id = tenantId ∧ job.tenantId = tenantId) :
    Respects (restrict owner) (Partitioned owner) tenantId ((Write.updateJob job).send refuse)
      db := by
  refine ⟨?_, fun after sent => ?_, fun after sent other different => ?_⟩
  · simp only [Write.send, restrict, Except.map,
      modify_owned IngestionJob.id (replaceJob_id job)]
  · obtain rfl := Except.ok.inj sent
    refine { sound with jobs := fun j mem => ?_ }
    obtain ⟨row, rowMem, rfl⟩ := List.mem_map.mp mem
    unfold replaceJob
    split
    · exact own.1.trans own.2.symm
    · exact sound.jobs row rowMem
  · obtain rfl := Except.ok.inj sent
    have same : ∀ row : IngestionJob, owner row.id ≠ tenantId → replaceJob job row = row :=
      fun row notOwn => if_neg fun sameId => notOwn ((congrArg owner sameId).trans own.1)
    simp only [restrict, modify_hidden IngestionJob.id (replaceJob_id job) same different]

theorem respects_updateLog {log : IngestionLog}
    (own : owner log.id = tenantId ∧ log.tenantId = tenantId) :
    Respects (restrict owner) (Partitioned owner) tenantId ((Write.updateLog log).send refuse)
      db := by
  refine ⟨?_, fun after sent => ?_, fun after sent other different => ?_⟩
  · simp only [Write.send, restrict, Except.map,
      modify_owned IngestionLog.id (replaceLog_id log)]
  · obtain rfl := Except.ok.inj sent
    refine { sound with logs := fun l mem => ?_ }
    obtain ⟨row, rowMem, rfl⟩ := List.mem_map.mp mem
    unfold replaceLog
    split
    · exact own.1.trans own.2.symm
    · exact sound.logs row rowMem
  · obtain rfl := Except.ok.inj sent
    have same : ∀ row : IngestionLog, owner row.id ≠ tenantId → replaceLog log row = row :=
      fun row notOwn => if_neg fun sameId => notOwn ((congrArg owner sameId).trans own.1)
    simp only [restrict, modify_hidden IngestionLog.id (replaceLog_id log) same different]

theorem respects_updateReadingList {list : ReadingList} (own : owner list.id = tenantId) :
    Respects (restrict owner) (Partitioned owner) tenantId
      ((Write.updateReadingList list).send refuse) db := by
  have own : owner list.cut.id = tenantId := own
  refine Respects.guard ⟨?_, fun after sent => ?_, fun after sent other different => ?_⟩
  · simp only [restrict, pure, Except.pure, Except.map,
      modify_owned ReadingList.id (replaceList_id list.cut)]
  · obtain rfl := Except.ok.inj sent
    refine { sound with lists := fun l mem => ?_, items := fun i mem => ?_ }
    · obtain ⟨row, rowMem, rfl⟩ := List.mem_map.mp mem
      rw [replaceList_id, replaceList_tenantId]
      exact sound.lists row rowMem
    · obtain ⟨partitioned, refers⟩ := sound.items i mem
      refine ⟨partitioned, refersTo_mono refers ?_ fun b mem => ⟨b, mem, rfl⟩⟩
      exact fun l mem => ⟨_, List.mem_map_of_mem mem, replaceList_id list.cut l⟩
  · obtain rfl := Except.ok.inj sent
    have same : ∀ row : ReadingList, owner row.id ≠ tenantId → replaceList list.cut row = row :=
      fun row notOwn => if_neg fun sameId => notOwn ((congrArg owner sameId).trans own)
    simp only [restrict, modify_hidden ReadingList.id (replaceList_id list.cut) same different]

theorem respects_deleteReadingListItems {readingListId : Uuid}
    (own : owner readingListId = tenantId) :
    Respects (restrict owner) (Partitioned owner) tenantId
      ((Write.deleteReadingListItems readingListId).send refuse) db := by
  refine ⟨?_, fun after sent => ?_, fun after sent other different => ?_⟩
  · simp only [Write.send, restrict, Except.map, Table.filter_delete]
  · obtain rfl := Except.ok.inj sent
    exact { sound with items := fun i mem => sound.items i (List.mem_filter.mp mem).1 }
  · obtain rfl := Except.ok.inj sent
    have apart : ∀ i : ReadingListItem, decide (owner i.readingListId = other) = true →
        decide (i.readingListId = readingListId) = false := by
      intro i others
      refine decide_eq_false fun same => different ?_
      rw [← of_decide_eq_true others, same, own]
    simp only [restrict, Table.filter_delete_of_not apart]

theorem respects_insertReadingListItem {item : ReadingListItem}
    (own : owner item.id = tenantId ∧ owner item.readingListId = tenantId ∧
      ∀ bookId, item.bookId = some bookId → owner bookId = tenantId) :
    Respects (restrict owner) (Partitioned owner) tenantId
      ((Write.insertReadingListItem item).send refuse) db := by
  obtain ⟨ownItem, ownList, ownBook⟩ := own
  have keptList : owner item.cut.readingListId = tenantId := ownList
  have partitioned : PartitionedItem owner item :=
    ⟨ownItem.trans ownList.symm, fun bookId same => (ownBook bookId same).trans ownList.symm⟩
  have refers : item.refersTo (restrict owner tenantId db) = item.refersTo db := by
    unfold ReadingListItem.refersTo restrict restrictCatalog
    rw [Table.rows_filter, any_id_filter ownList]
    cases bookId : item.bookId with
    | none => rfl
    | some id => simp only [Option.all_some, Table.rows_filter, any_id_filter (ownBook id bookId)]
  refine Respects.guard ⟨?_, fun after sent => ?_, fun after sent other different => ?_⟩
  · have near : ∀ a ∈ db.readingListItems.rows, a.Clash item.cut →
        owner a.readingListId = tenantId := fun a mem sameId =>
      (sound.items a mem).1.1.symm.trans ((congrArg owner sameId).trans ownItem)
    rw [refers]
    simp only [restrict, insert_owned ReadingListItem.readingListId keptList near]
    split
    · cases db.readingListItems.insert item.cut <;> rfl
    · rfl
  · split at sent
    case isTrue there =>
      obtain ⟨items, inserted, made⟩ := bind_eq_ok.mp sent
      obtain rfl := Except.ok.inj made
      refine { sound with items := fun i mem => ?_ }
      rcases Table.mem_insert (orUniqueViolation_eq_ok.mp inserted) mem with old | rfl
      · exact sound.items i old
      · exact ⟨partitioned, there⟩
    case isFalse => cases sent
  · split at sent
    case isTrue there =>
      obtain ⟨items, inserted, made⟩ := bind_eq_ok.mp sent
      obtain rfl := Except.ok.inj made
      simp only [restrict, insert_hidden ReadingListItem.readingListId keptList
        (orUniqueViolation_eq_ok.mp inserted) different]
    case isFalse => cases sent

end Database

/-- The store treats the statements of a tenant on its rows as on the whole database. -/
theorem sends (refuse : Refusal) (before : Database) :
    (share owner tenantId before).Sends (Write.send refuse) (Write.send refuse) := by
  apply sends_among
  intro write db owned sound
  cases write with
  | catalog write => exact respects_catalog sound owned
  | insertJob job => exact respects_insertJob sound owned
  | updateJob job => exact respects_updateJob sound owned
  | insertLog log => exact respects_insertLog sound owned
  | updateLog log => exact respects_updateLog sound owned
  | insertReadingList list => exact respects_insertReadingList sound owned
  | updateReadingList list => exact respects_updateReadingList sound owned
  | deleteReadingListItems readingListId => exact respects_deleteReadingListItems sound owned
  | insertReadingListItem item => exact respects_insertReadingListItem sound owned

/-! ### What a tenant has does not depend on the owner function -/

theorem restrict_congr {other : Uuid → Uuid} {db : Database} (sound : Partitioned owner db)
    (soundOther : Partitioned other db) :
    restrict owner tenantId db = restrict other tenantId db := by
  have books : ∀ b ∈ db.catalog.books.rows, owner b.id = other b.id := fun b mem =>
    (sound.catalog.books b mem).trans (soundOther.catalog.books b mem).symm
  have lists : ∀ l ∈ db.readingLists.rows, owner l.id = other l.id := fun l mem =>
    (sound.lists l mem).trans (soundOther.lists l mem).symm
  unfold restrict restrictCatalog
  congr 1
  · congr 1
    · exact Table.filter_congr fun b mem => by rw [books b mem]
    · apply Table.filter_congr
      intro a mem
      rw [sound.catalog.authors a mem, soundOther.catalog.authors a mem]
    · apply Table.filter_congr
      intro l mem
      obtain ⟨_, ⟨b, book, id⟩, _⟩ := sound.catalog.links l mem
      rw [← id, books b book]
    · apply Table.filter_congr
      intro s mem
      obtain ⟨b, book, id⟩ := sound.catalog.subjects s mem
      rw [← id, books b book]
  · apply Table.filter_congr
    intro j mem
    rw [sound.jobs j mem, soundOther.jobs j mem]
  · apply Table.filter_congr
    intro l mem
    rw [sound.logs l mem, soundOther.logs l mem]
  · exact Table.filter_congr fun l mem => by rw [lists l mem]
  · apply Table.filter_congr
    intro i mem
    obtain ⟨⟨l, list, id⟩, _⟩ := refersTo_iff.mp (sound.items i mem).2
    rw [← id, lists l list]

end TenantLibrary.Tenancy
