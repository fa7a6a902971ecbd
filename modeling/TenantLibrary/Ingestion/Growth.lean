import TenantLibrary.Ingestion.Storing
import TenantLibrary.Store.Statements

/-!
What storing a work adds to the catalog.

Storing never deletes a row and never changes the identity of a book: the catalog
grows (`Grows`). After a work is stored its book, its authors, their links and its
subjects are in the catalog (`Holds`), and since the catalog only grows they stay
there. A work whose rows are all present is stored again without a new row
(`putRecord_of_holds`).
-/

namespace TenantLibrary.Ingestion

open TenantLibrary.Lib TenantLibrary.OpenLibrary TenantLibrary.Store

variable {refuse : Refusal} {tenantId bookId newId : Uuid} {record : WorkRecord} {draws : Draws}
  {c after : Catalog}

/-! ### Lookups -/

/-- The columns of a book that no statement changes. -/
def Book.identity (book : Book) : Uuid × Uuid × String :=
  (book.id, book.tenantId, book.olWorkKey)

@[simp] theorem identity_assign (id : Uuid) (values : BookValues) (title : String) (book : Book) :
    Book.identity (book.assign id values title) = Book.identity book := by
  simp [Book.identity]

theorem findBook_eq_some {olWorkKey : String} {book : Book} :
    findBook tenantId olWorkKey c = some book ↔
      book ∈ c.books.rows ∧ book.tenantId = tenantId ∧ book.olWorkKey = olWorkKey :=
  Table.find?_columns fun _ _ tenant key => .inr ⟨tenant, key⟩

theorem findAuthor_eq_some {olAuthorKey : String} {author : Author} :
    findAuthor tenantId olAuthorKey c = some author ↔
      author ∈ c.authors.rows ∧ author.tenantId = tenantId ∧ author.olAuthorKey = olAuthorKey :=
  Table.find?_columns fun _ _ tenant key => .inr ⟨tenant, key⟩

/-- An author of the tenant has the key. -/
def Known (tenantId : Uuid) (c : Catalog) (olAuthorKey : String) : Prop :=
  ∃ a ∈ c.authors.rows, a.tenantId = tenantId ∧ a.olAuthorKey = olAuthorKey

theorem findAuthor_eq_none_iff {olAuthorKey : String} :
    findAuthor tenantId olAuthorKey c = none ↔ ¬ Known tenantId c olAuthorKey := by
  simp [findAuthor, Known]

theorem findLink_isNone {authorId : Uuid} :
    (findLink bookId authorId c).isNone ↔ ⟨bookId, authorId⟩ ∉ c.bookAuthors.rows := by
  simp only [findLink, Option.isNone_iff_eq_none, List.find?_eq_none, Bool.and_eq_true,
    decide_eq_true_eq, not_and]
  constructor
  · intro absent mem
    exact absent _ mem rfl rfl
  · rintro absent ⟨book, author⟩ mem rfl rfl
    exact absent mem

theorem findSubject_isNone {subject : String} :
    (findSubject bookId subject c).isNone ↔ ⟨bookId, subject⟩ ∉ c.bookSubjects.rows := by
  simp only [findSubject, Option.isNone_iff_eq_none, List.find?_eq_none, Bool.and_eq_true,
    decide_eq_true_eq, not_and]
  constructor
  · intro absent mem
    exact absent _ mem rfl rfl
  · rintro absent ⟨book, text⟩ mem rfl rfl
    exact absent mem

/-! ### The rows of a book -/

/-- The row of a new book. -/
def insertedBook (id tenantId : Uuid) (record : WorkRecord) (title : String) : Book :=
  newBook id tenantId (cut 50 record.workKey) (newValues record).cut (cut 1000 title)

/-- A row that is given these values: it is only written when they are others. -/
def Book.updated (id : Uuid) (values : BookValues) (title : String) (book : Book) : Book :=
  if values = book.values then book else book.assign id values.cut (cut 1000 title)

theorem updated_of_ne {id : Uuid} {values : BookValues} {title : String} {book : Book}
    (other : book.id ≠ id) : Book.updated id values title book = book := by
  unfold Book.updated Book.assign
  rw [if_neg other, ite_self]

@[simp] theorem identity_updated (id : Uuid) (values : BookValues) (title : String) (book : Book) :
    Book.identity (Book.updated id values title book) = Book.identity book := by
  unfold Book.updated
  split
  · rfl
  · exact identity_assign ..

theorem clash_of_updated {id : Uuid} {values : BookValues} {title : String} (a b : Book)
    (clash : (Book.updated id values title a).Clash (Book.updated id values title b)) :
    a.Clash b := by
  have same (book : Book) : (Book.updated id values title book).id = book.id ∧
      (Book.updated id values title book).tenantId = book.tenantId ∧
      (Book.updated id values title book).olWorkKey = book.olWorkKey := by
    simpa [Book.identity] using identity_updated id values title book
  simpa [Book.Clash, same] using clash

/-- Giving a book the values it has changes nothing. -/
theorem modify_updated_self {book : Book} {title : String} (mem : book ∈ c.books.rows) :
    c.books.modify (Book.updated book.id book.values title) clash_of_updated = c.books := by
  refine Table.ext ((List.map_congr_left fun row rowMem => ?_).trans (List.map_id _))
  by_cases same : row.id = book.id
  · obtain rfl : row = book :=
      c.books.eq_of_clash (fun _ _ => Book.Clash.symm) rowMem mem (.inl same)
    exact if_pos rfl
  · exact updated_of_ne same

/-- Giving a book other values writes its row. -/
theorem modify_updated_of_ne {book : Book} {values : BookValues} {title : String}
    (mem : book ∈ c.books.rows) (other : values ≠ book.values) :
    c.books.modify (Book.updated book.id values title) clash_of_updated =
      c.books.modify (Book.assign book.id values.cut (cut 1000 title)) Book.clash_of_assign := by
  refine Table.ext (List.map_congr_left fun row rowMem => ?_)
  by_cases same : row.id = book.id
  · obtain rfl : row = book :=
      c.books.eq_of_clash (fun _ _ => Book.Clash.symm) rowMem mem (.inl same)
    exact if_neg other
  · rw [updated_of_ne same, Book.assign, if_neg same]

/-! ### What each function does -/

/-- A sequence that ends well passes through a catalog in the middle. -/
theorem bind_run_eq_ok {α β : Type} {transformer : CatalogM α} {next : α → CatalogM β} {b : β} :
    (transformer >>= next) c = .ok (b, after) ↔
      ∃ a middle, transformer c = .ok (a, middle) ∧ next a middle = .ok (b, after) := by
  change transformer c >>= (fun reached => next reached.1 reached.2) = _ ↔ _
  rw [bind_eq_ok, Prod.exists]

theorem written_eq_ok {α : Type} {write : CatalogWrite} {a b : α} :
    written refuse write a c = .ok (b, after) ↔ b = a ∧ write.send refuse c = .ok after := by
  unfold written
  cases write.send refuse c <;> simp [Except.map, eq_comm]

/-- The title that is stored is the record's, cut. -/
theorem cut_title_eq_some {values : BookValues} {stored : String} :
    values.cut.title = some stored ↔
      ∃ title, values.title = some title ∧ stored = cut 1000 title := by
  simp only [BookValues.cut, Option.map_eq_some_iff, @eq_comm _ stored]

/-- A book is inserted, or the row that has its key is given the merged values. -/
theorem putBook_cases (stored : putBook refuse tenantId record newId c = .ok (bookId, after)) :
    (findBook tenantId record.workKey c = none ∧ bookId = newId ∧
      ∃ title, record.title = some title ∧ ∃ books,
        c.books.insert (insertedBook newId tenantId record title) = some books ∧
          after = { c with books }) ∨
    ∃ book title, findBook tenantId record.workKey c = some book ∧ bookId = book.id ∧
      record.title = some title ∧
        after = { c with
          books := c.books.modify (Book.updated book.id (mergedValues record book) title)
            clash_of_updated } := by
  cases found : findBook tenantId record.workKey c with
  | none =>
      rw [putBook_of_none found] at stored
      obtain ⟨rfl, sent⟩ := written_eq_ok.mp stored
      obtain ⟨_, written, books, inserted, rfl⟩ := run_insertBook.mp (send_eq_ok.mp sent).2
      obtain ⟨title, titled, rfl⟩ := cut_title_eq_some.mp written
      exact .inl ⟨rfl, rfl, title, titled, books, inserted, rfl⟩
  | some book =>
      rw [putBook_of_some found] at stored
      have mem := (findBook_eq_some.mp found).1
      right
      split at stored
      case isTrue changed =>
        obtain ⟨rfl, sent⟩ := written_eq_ok.mp stored
        obtain ⟨_, written, rfl⟩ := run_updateBook.mp (send_eq_ok.mp sent).2
        obtain ⟨title, titled, rfl⟩ := cut_title_eq_some.mp written
        refine ⟨book, title, rfl, rfl, titled, ?_⟩
        rw [modify_updated_of_ne mem changed]
      case isFalse unchanged =>
        have same : mergedValues record book = book.values := by simpa using unchanged
        obtain ⟨rfl, rfl⟩ : book.id = bookId ∧ c = after := by
          simpa using Except.ok.inj stored
        refine ⟨book, book.title, rfl, rfl, congrArg BookValues.title same, ?_⟩
        rw [same, modify_updated_self mem]

/-- An author is found, or a new one is inserted. -/
theorem putAuthor_cases {olAuthorKey : String} {name : Option String} {authorId : Uuid}
    (stored : putAuthor refuse tenantId olAuthorKey name newId c = .ok (authorId, after)) :
    (∃ author, findAuthor tenantId olAuthorKey c = some author ∧ authorId = author.id ∧
      after = c) ∨
    (findAuthor tenantId olAuthorKey c = none ∧ authorId = newId ∧ ∃ text, name = some text ∧
      ∃ authors, c.authors.insert ⟨newId, tenantId, cut 50 olAuthorKey, cut 500 text⟩ =
          some authors ∧
        after = { c with authors }) := by
  cases found : findAuthor tenantId olAuthorKey c with
  | none =>
      rw [putAuthor_of_none found] at stored
      obtain ⟨rfl, sent⟩ := written_eq_ok.mp stored
      obtain ⟨_, written, authors, inserted, rfl⟩ := run_insertAuthor.mp (send_eq_ok.mp sent).2
      obtain ⟨text, named, rfl⟩ := Option.map_eq_some_iff.mp written
      exact .inr ⟨rfl, rfl, text, named, authors, inserted, rfl⟩
  | some author =>
      rw [putAuthor_of_some found] at stored
      obtain ⟨rfl, rfl⟩ : author.id = authorId ∧ c = after := by
        simpa using Except.ok.inj stored
      exact .inl ⟨author, rfl, rfl, rfl⟩

theorem putLink_of_mem {authorId : Uuid} (mem : ⟨bookId, authorId⟩ ∈ c.bookAuthors.rows) :
    putLink refuse bookId authorId c = .ok ((), c) :=
  putLink_of_some fun absent => findLink_isNone.mp absent mem

theorem putSubject_of_mem {subject : String} (mem : ⟨bookId, subject⟩ ∈ c.bookSubjects.rows) :
    putSubject refuse bookId subject c = .ok ((), c) :=
  putSubject_of_some fun absent => findSubject_isNone.mp absent mem

/-- A link is there already, or a new one between existing rows is inserted. -/
theorem putLink_cases {authorId : Uuid} {result : Unit}
    (stored : putLink refuse bookId authorId c = .ok (result, after)) :
    (⟨bookId, authorId⟩ ∈ c.bookAuthors.rows ∧ after = c) ∨
    (⟨bookId, authorId⟩ ∉ c.bookAuthors.rows ∧ (∃ b ∈ c.books.rows, b.id = bookId) ∧
      (∃ a ∈ c.authors.rows, a.id = authorId) ∧
      ∃ bookAuthors, c.bookAuthors.insert ⟨bookId, authorId⟩ = some bookAuthors ∧
        after = { c with bookAuthors }) := by
  by_cases linked : ⟨bookId, authorId⟩ ∈ c.bookAuthors.rows
  case pos =>
    rw [putLink_of_mem linked] at stored
    obtain rfl : c = after := by simpa using Except.ok.inj stored
    exact .inl ⟨linked, rfl⟩
  case neg =>
    rw [putLink_of_none (findLink_isNone.mpr linked)] at stored
    exact .inr ⟨linked,
      run_insertBookAuthor.mp (send_eq_ok.mp (written_eq_ok.mp stored).2).2⟩

/-- A subject is there already, or it is inserted for an existing book. -/
theorem putSubject_cases {subject : String} {result : Unit}
    (stored : putSubject refuse bookId subject c = .ok (result, after)) :
    (⟨bookId, subject⟩ ∈ c.bookSubjects.rows ∧ after = c) ∨
    (⟨bookId, subject⟩ ∉ c.bookSubjects.rows ∧ (∃ b ∈ c.books.rows, b.id = bookId) ∧
      ∃ bookSubjects, c.bookSubjects.insert ⟨bookId, cut 500 subject⟩ = some bookSubjects ∧
        after = { c with bookSubjects }) := by
  by_cases has : ⟨bookId, subject⟩ ∈ c.bookSubjects.rows
  case pos =>
    rw [putSubject_of_mem has] at stored
    obtain rfl : c = after := by simpa using Except.ok.inj stored
    exact .inl ⟨has, rfl⟩
  case neg =>
    rw [putSubject_of_none (findSubject_isNone.mpr has)] at stored
    exact .inr ⟨has,
      run_insertBookSubject.mp (send_eq_ok.mp (written_eq_ok.mp stored).2).2⟩

/-! ### The catalog grows -/

/-- No row disappears, every book keeps its identity, and the keys and subjects of new rows
are as their columns keep them. -/
structure Grows (c after : Catalog) : Prop where
  books : Extends (fun identity => cut 50 identity.2.2 = identity.2.2)
    (c.books.rows.map Book.identity) (after.books.rows.map Book.identity)
  authors : Extends (fun a => cut 50 a.olAuthorKey = a.olAuthorKey) c.authors.rows
    after.authors.rows
  bookAuthors : c.bookAuthors.rows <+: after.bookAuthors.rows
  bookSubjects : Extends (fun s => cut 500 s.subject = s.subject) c.bookSubjects.rows
    after.bookSubjects.rows

theorem Grows.refl (c : Catalog) : Grows c c :=
  ⟨.refl _, .refl _, List.prefix_rfl, .refl _⟩

theorem Grows.trans {middle : Catalog} (first : Grows c middle) (second : Grows middle after) :
    Grows c after :=
  ⟨first.books.trans second.books, first.authors.trans second.authors,
    first.bookAuthors.trans second.bookAuthors, first.bookSubjects.trans second.bookSubjects⟩

/-- The catalog grows without a change to the books. -/
def GrowsBesideBooks (c after : Catalog) : Prop := Grows c after ∧ after.books = c.books

theorem GrowsBesideBooks.refl (c : Catalog) : GrowsBesideBooks c c := ⟨.refl c, rfl⟩

theorem GrowsBesideBooks.trans {middle : Catalog} (first : GrowsBesideBooks c middle)
    (second : GrowsBesideBooks middle after) : GrowsBesideBooks c after :=
  ⟨first.1.trans second.1, second.2.trans first.2⟩

/-- A row of the book with this identity. -/
def HasBook (bookId tenantId : Uuid) (olWorkKey : String) (c : Catalog) : Prop :=
  (bookId, tenantId, olWorkKey) ∈ c.books.rows.map Book.identity

/-- An author under this key, linked to the book. -/
def HasAuthor (bookId tenantId : Uuid) (olAuthorKey : String) (c : Catalog) : Prop :=
  ∃ a ∈ c.authors.rows, a.tenantId = tenantId ∧ a.olAuthorKey = olAuthorKey ∧
    ⟨bookId, a.id⟩ ∈ c.bookAuthors.rows

def HasSubject (bookId : Uuid) (subject : String) (c : Catalog) : Prop :=
  ⟨bookId, subject⟩ ∈ c.bookSubjects.rows

theorem hasBook_iff {olWorkKey : String} :
    HasBook bookId tenantId olWorkKey c ↔
      ∃ b ∈ c.books.rows, b.id = bookId ∧ b.tenantId = tenantId ∧ b.olWorkKey = olWorkKey := by
  simp [HasBook, Book.identity]

/-- The book under a key is the one a look-up finds. -/
theorem hasBook_iff_find {olWorkKey : String} :
    HasBook bookId tenantId olWorkKey c ↔
      ∃ b, findBook tenantId olWorkKey c = some b ∧ b.id = bookId := by
  simp only [hasBook_iff, findBook_eq_some]
  constructor
  · rintro ⟨b, mem, id, tenant, key⟩
    exact ⟨b, ⟨mem, tenant, key⟩, id⟩
  · rintro ⟨b, ⟨mem, tenant, key⟩, id⟩
    exact ⟨b, mem, id, tenant, key⟩

theorem HasBook.mono {olWorkKey : String} (has : HasBook bookId tenantId olWorkKey c)
    (grows : Grows c after) : HasBook bookId tenantId olWorkKey after :=
  grows.books.subset has

theorem HasAuthor.mono {olAuthorKey : String} (has : HasAuthor bookId tenantId olAuthorKey c)
    (grows : Grows c after) : HasAuthor bookId tenantId olAuthorKey after := by
  obtain ⟨a, mem, tenant, key, linked⟩ := has
  exact ⟨a, grows.authors.subset mem, tenant, key, grows.bookAuthors.subset linked⟩

theorem HasSubject.mono {subject : String} (has : HasSubject bookId subject c)
    (grows : Grows c after) : HasSubject bookId subject after :=
  grows.bookSubjects.subset has

/-! ### Rows under a key, or under what its column keeps of it -/

/-- The book has the key or, when no book has it, the key as it is cut. -/
def HoldsBook (bookId tenantId : Uuid) (olWorkKey : String) (c : Catalog) : Prop :=
  HasBook bookId tenantId olWorkKey c ∨
    findBook tenantId olWorkKey c = none ∧ HasBook bookId tenantId (cut 50 olWorkKey) c

def HoldsAuthor (bookId tenantId : Uuid) (olAuthorKey : String) (c : Catalog) : Prop :=
  HasAuthor bookId tenantId olAuthorKey c ∨
    findAuthor tenantId olAuthorKey c = none ∧ HasAuthor bookId tenantId (cut 50 olAuthorKey) c

def HoldsSubject (bookId : Uuid) (subject : String) (c : Catalog) : Prop :=
  HasSubject bookId subject c ∨ HasSubject bookId (cut 500 subject) c

/-- A book that is found later under a key that no book had has a whole key. -/
theorem HoldsBook.mono {olWorkKey : String} (holds : HoldsBook bookId tenantId olWorkKey c)
    (grows : Grows c after) : HoldsBook bookId tenantId olWorkKey after := by
  rcases holds with has | ⟨missing, has⟩
  · exact .inl (has.mono grows)
  · cases found : findBook tenantId olWorkKey after with
    | none => exact .inr ⟨found, has.mono grows⟩
    | some book =>
        have later := hasBook_iff_find.mpr ⟨book, found, rfl⟩
        rcases grows.books.mem_or later with before | (whole : cut 50 olWorkKey = olWorkKey)
        · obtain ⟨_, same, _⟩ := hasBook_iff_find.mp before
          cases missing.symm.trans same
        · exact .inl (whole ▸ has.mono grows)

theorem HoldsAuthor.mono {olAuthorKey : String} (holds : HoldsAuthor bookId tenantId olAuthorKey c)
    (grows : Grows c after) : HoldsAuthor bookId tenantId olAuthorKey after := by
  rcases holds with has | ⟨missing, has⟩
  · exact .inl (has.mono grows)
  · cases found : findAuthor tenantId olAuthorKey after with
    | none => exact .inr ⟨found, has.mono grows⟩
    | some author =>
        obtain ⟨mem, tenant, key⟩ := findAuthor_eq_some.mp found
        rcases grows.authors.mem_or mem with before | whole
        · cases missing.symm.trans (findAuthor_eq_some.mpr ⟨before, tenant, key⟩)
        · rw [key] at whole
          exact .inl (whole ▸ has.mono grows)

theorem HoldsSubject.mono {subject : String} (holds : HoldsSubject bookId subject c)
    (grows : Grows c after) : HoldsSubject bookId subject after :=
  holds.imp (·.mono grows) (·.mono grows)

theorem putBook_grows (stored : putBook refuse tenantId record newId c = .ok (bookId, after)) :
    Grows c after ∧ HoldsBook bookId tenantId record.workKey after := by
  rcases putBook_cases stored with ⟨missing, rfl, title, _, books, inserted, rfl⟩ |
    ⟨book, title, found, rfl, _, rfl⟩
  · obtain ⟨_, rows⟩ := Table.insert_eq_some.mp inserted
    have grows : Grows c { c with books } := by
      refine ⟨.snoc (a := (bookId, tenantId, cut 50 record.workKey)) ?_ cut_cut, .refl _,
        List.prefix_rfl, .refl _⟩
      rw [rows, List.map_append]
      rfl
    have has : HasBook bookId tenantId (cut 50 record.workKey) { c with books } := by
      rw [HasBook, rows, List.map_append]
      exact List.mem_append_right _ List.mem_cons_self
    refine ⟨grows, ?_⟩
    cases later : findBook tenantId record.workKey { c with books } with
    | none => exact .inr ⟨later, has⟩
    | some row =>
        -- only the new row can have the key
        obtain ⟨mem, tenant, key⟩ := findBook_eq_some.mp later
        rcases Table.mem_insert inserted mem with before | rfl
        · cases missing.symm.trans (findBook_eq_some.mpr ⟨before, tenant, key⟩)
        · exact .inl (key ▸ has)
  · obtain ⟨mem, tenant, key⟩ := findBook_eq_some.mp found
    have sameIdentities :
        (c.books.rows.map (Book.updated book.id (mergedValues record book) title)).map
          Book.identity = c.books.rows.map Book.identity := by
      simp [Function.comp_def]
    refine ⟨⟨.of_eq sameIdentities, .refl _, List.prefix_rfl, .refl _⟩, .inl ?_⟩
    simp only [HasBook, Table.rows_modify, sameIdentities]
    exact List.mem_map.mpr ⟨book, mem, by simp [Book.identity, tenant, key]⟩

/-- An author that is found or inserted has the key or, when none has it, the key as it is
cut. -/
theorem putAuthor_grows {olAuthorKey : String} {name : Option String} {authorId : Uuid}
    (stored : putAuthor refuse tenantId olAuthorKey name newId c = .ok (authorId, after)) :
    GrowsBesideBooks c after ∧ after.bookAuthors = c.bookAuthors ∧
      ∃ a ∈ after.authors.rows, a.id = authorId ∧ a.tenantId = tenantId ∧
        (a.olAuthorKey = olAuthorKey ∨
          findAuthor tenantId olAuthorKey after = none ∧ a.olAuthorKey = cut 50 olAuthorKey) := by
  rcases putAuthor_cases stored with ⟨author, found, rfl, rfl⟩ |
    ⟨missing, rfl, text, _, authors, inserted, rfl⟩
  · obtain ⟨mem, tenant, key⟩ := findAuthor_eq_some.mp found
    exact ⟨.refl _, rfl, author, mem, rfl, tenant, .inl key⟩
  · obtain ⟨_, rows⟩ := Table.insert_eq_some.mp inserted
    refine ⟨⟨⟨.refl _, .snoc rows cut_cut, List.prefix_rfl, .refl _⟩, rfl⟩, rfl,
      ⟨authorId, tenantId, cut 50 olAuthorKey, cut 500 text⟩, ?_, rfl, rfl, ?_⟩
    · rw [rows]
      exact List.mem_append_right _ List.mem_cons_self
    · cases later : findAuthor tenantId olAuthorKey { c with authors } with
      | none => exact .inr ⟨rfl, rfl⟩
      | some row =>
          obtain ⟨mem, tenant, key⟩ := findAuthor_eq_some.mp later
          rcases Table.mem_insert inserted mem with before | rfl
          · cases missing.symm.trans (findAuthor_eq_some.mpr ⟨before, tenant, key⟩)
          · exact .inl key

theorem putLink_grows {authorId : Uuid} {result : Unit}
    (stored : putLink refuse bookId authorId c = .ok (result, after)) :
    GrowsBesideBooks c after ∧ after.authors = c.authors ∧
      ⟨bookId, authorId⟩ ∈ after.bookAuthors.rows := by
  rcases putLink_cases stored with ⟨present, rfl⟩ | ⟨_, _, _, bookAuthors, inserted, rfl⟩
  · exact ⟨.refl _, rfl, present⟩
  · obtain ⟨_, rows⟩ := Table.insert_eq_some.mp inserted
    refine ⟨⟨⟨.refl _, .refl _, ?_, .refl _⟩, rfl⟩, rfl, ?_⟩
    · simp [rows]
    · simp [rows]

theorem putSubject_grows {subject : String} {result : Unit}
    (stored : putSubject refuse bookId subject c = .ok (result, after)) :
    GrowsBesideBooks c after ∧ HoldsSubject bookId subject after := by
  rcases putSubject_cases stored with ⟨present, rfl⟩ | ⟨_, _, bookSubjects, inserted, rfl⟩
  · exact ⟨.refl _, .inl present⟩
  · obtain ⟨_, rows⟩ := Table.insert_eq_some.mp inserted
    refine ⟨⟨⟨.refl _, .refl _, List.prefix_rfl, .snoc rows cut_cut⟩, rfl⟩, .inr ?_⟩
    rw [HasSubject, rows]
    exact List.mem_append_right _ List.mem_cons_self

theorem putAuthorCall_grows {call : AuthorCall} {result : Unit}
    (stored : putAuthorCall refuse tenantId bookId draws call c = .ok (result, after)) :
    GrowsBesideBooks c after ∧ HoldsAuthor bookId tenantId (call.olAuthorKey draws) after := by
  obtain ⟨authorId, middle, found, linked⟩ := bind_run_eq_ok.mp stored
  obtain ⟨firstGrows, _, a, mem, rfl, tenant, key⟩ := putAuthor_grows found
  obtain ⟨secondGrows, sameAuthors, link⟩ := putLink_grows linked
  refine ⟨firstGrows.trans secondGrows, ?_⟩
  rcases key with key | ⟨missing, key⟩
  · exact .inl ⟨a, sameAuthors ▸ mem, tenant, key, link⟩
  · refine .inr ⟨?_, a, sameAuthors ▸ mem, tenant, key, link⟩
    rw [findAuthor, sameAuthors]
    exact missing

/-- Going through a list with a body that grows the catalog: each item's rows are
there at the end. -/
theorem forM_grows {ι : Type} {body : ι → CatalogM PUnit} (Has : ι → Catalog → Prop)
    (mono : ∀ i c after, Has i c → Grows c after → Has i after)
    (each : ∀ i c after result, body i c = .ok (result, after) →
      GrowsBesideBooks c after ∧ Has i after)
    {items : List ι} {result : PUnit} (stored : items.forM body c = .ok (result, after)) :
    GrowsBesideBooks c after ∧ ∀ i ∈ items, Has i after := by
  induction items generalizing c with
  | nil =>
      obtain rfl : c = after := by simpa using Except.ok.inj stored
      exact ⟨.refl c, by simp⟩
  | cons i rest ih =>
      obtain ⟨_, middle, first, remaining⟩ := bind_run_eq_ok.mp stored
      obtain ⟨firstGrows, has⟩ := each i c middle _ first
      obtain ⟨restGrows, restHas⟩ := ih remaining
      refine ⟨firstGrows.trans restGrows, fun j mem => ?_⟩
      rcases List.mem_cons.mp mem with rfl | later
      · exact mono j middle after has restGrows.1
      · exact restHas j later

/-- Going through a list with a body that keeps a part of the catalog keeps it. -/
theorem forM_keeps {ι γ : Type} {body : ι → CatalogM PUnit} (part : Catalog → γ)
    (each : ∀ i c after result, body i c = .ok (result, after) → part after = part c)
    {items : List ι} {result : PUnit} (stored : items.forM body c = .ok (result, after)) :
    part after = part c := by
  induction items generalizing c with
  | nil =>
      obtain rfl : c = after := by simpa using Except.ok.inj stored
      rfl
  | cons i rest ih =>
      obtain ⟨_, middle, first, remaining⟩ := bind_run_eq_ok.mp stored
      exact (ih remaining).trans (each i c middle _ first)

/-- The rows of a work: its book, its authors with their links, its subjects. -/
structure Holds (bookId tenantId : Uuid) (record : WorkRecord) (draws : Draws) (c : Catalog) :
    Prop where
  book : HoldsBook bookId tenantId record.workKey c
  authors : ∀ call ∈ record.authorCalls, HoldsAuthor bookId tenantId (call.olAuthorKey draws) c
  subjects : ∀ subject ∈ record.subjects.take 50, HoldsSubject bookId subject c

theorem Holds.mono (holds : Holds bookId tenantId record draws c) (grows : Grows c after) :
    Holds bookId tenantId record draws after :=
  ⟨holds.book.mono grows, fun call mem => (holds.authors call mem).mono grows,
    fun subject mem => (holds.subjects subject mem).mono grows⟩

/-- Storing a work changes its book's row and then only adds rows beside it; at the end
all the rows of the work are there. -/
theorem putRecord_holds {result : Unit}
    (stored : putRecord refuse tenantId record draws c = .ok (result, after)) :
    ∃ bookId middle, putBook refuse tenantId record draws.bookId c = .ok (bookId, middle) ∧
      GrowsBesideBooks middle after ∧ Grows c after ∧ Holds bookId tenantId record draws after := by
  rw [putRecord, bind_run_eq_ok] at stored
  obtain ⟨bookId, middle, book, remaining⟩ := stored
  rw [bind_run_eq_ok] at remaining
  obtain ⟨_, linked, authors, subjects⟩ := remaining
  obtain ⟨bookGrows, hasBook⟩ := putBook_grows book
  obtain ⟨authorsGrow, hasAuthors⟩ :=
    forM_grows (fun call => HoldsAuthor bookId tenantId (call.olAuthorKey draws))
      (fun _ _ _ => HoldsAuthor.mono) (fun _ _ _ _ => putAuthorCall_grows) authors
  obtain ⟨subjectsGrow, hasSubjects⟩ := forM_grows (HoldsSubject bookId)
    (fun _ _ _ => HoldsSubject.mono) (fun _ _ _ _ => putSubject_grows) subjects
  have restGrows := authorsGrow.trans subjectsGrow
  exact ⟨bookId, middle, book, restGrows, bookGrows.trans restGrows.1,
    hasBook.mono restGrows.1, fun call mem => (hasAuthors call mem).mono subjectsGrow.1,
    hasSubjects⟩

/-! ### Properties that every statement keeps -/

section Kept

variable {P : Catalog → Prop}
  (kept : ∀ {write : CatalogWrite} {c after : Catalog}, P c → write.send refuse c = .ok after →
    P after)
include kept

theorem written_keeps {α : Type} {write : CatalogWrite} {a b : α} (start : P c)
    (stored : written refuse write a c = .ok (b, after)) : P after :=
  kept start (written_eq_ok.mp stored).2

theorem putBook_keeps (start : P c)
    (stored : putBook refuse tenantId record newId c = .ok (bookId, after)) : P after := by
  cases found : findBook tenantId record.workKey c with
  | none => exact written_keeps kept start (putBook_of_none found ▸ stored)
  | some book =>
      rw [putBook_of_some found] at stored
      split at stored
      · exact written_keeps kept start stored
      · exact (Prod.mk.inj (Except.ok.inj stored)).2 ▸ start

theorem putAuthorCall_keeps {call : AuthorCall} {result : Unit} (start : P c)
    (stored : putAuthorCall refuse tenantId bookId draws call c = .ok (result, after)) :
    P after := by
  obtain ⟨authorId, middle, put, linked⟩ := bind_run_eq_ok.mp stored
  have between : P middle := by
    cases found : findAuthor tenantId (call.olAuthorKey draws) c with
    | none => exact written_keeps kept start (putAuthor_of_none found ▸ put)
    | some author =>
        rw [putAuthor_of_some found] at put
        exact (Prod.mk.inj (Except.ok.inj put)).2 ▸ start
  by_cases absent : (findLink bookId authorId middle).isNone
  · exact written_keeps kept between (putLink_of_none absent ▸ linked)
  · rw [putLink_of_some absent] at linked
    exact (Prod.mk.inj (Except.ok.inj linked)).2 ▸ between

theorem putSubject_keeps {subject : String} {result : Unit} (start : P c)
    (stored : putSubject refuse bookId subject c = .ok (result, after)) : P after := by
  by_cases absent : (findSubject bookId subject c).isNone
  · exact written_keeps kept start (putSubject_of_none absent ▸ stored)
  · rw [putSubject_of_some absent] at stored
    exact (Prod.mk.inj (Except.ok.inj stored)).2 ▸ start

omit kept in
theorem forM_invariant {ι : Type} {body : ι → CatalogM PUnit}
    (each : ∀ i c after result, P c → body i c = .ok (result, after) → P after)
    {items : List ι} {result : PUnit} (start : P c)
    (stored : items.forM body c = .ok (result, after)) : P after := by
  induction items generalizing c with
  | nil => exact (Prod.mk.inj (Except.ok.inj stored)).2 ▸ start
  | cons i rest ih =>
      obtain ⟨_, middle, first, remaining⟩ := bind_run_eq_ok.mp stored
      exact ih (each i c middle _ start first) remaining

theorem putRecord_keeps {result : Unit} (start : P c)
    (stored : putRecord refuse tenantId record draws c = .ok (result, after)) : P after := by
  obtain ⟨bookId, middle, book, remaining⟩ := bind_run_eq_ok.mp stored
  obtain ⟨_, linked, authors, subjects⟩ := bind_run_eq_ok.mp remaining
  have linkedKeeps := forM_invariant (fun _ _ _ _ => putAuthorCall_keeps kept)
    (putBook_keeps kept start book) authors
  exact forM_invariant (fun _ _ _ _ => putSubject_keeps kept) linkedKeeps subjects

end Kept

/-! ### Rows that are there already -/

/-- A book that is there is found: a second row would clash with it. -/
theorem found_of_holds (holds : HoldsBook bookId tenantId record.workKey c) {id : Uuid}
    (stored : putBook refuse tenantId record newId c = .ok (id, after)) :
    ∃ book title, findBook tenantId record.workKey c = some book ∧ book.id = bookId ∧
      id = bookId ∧ record.title = some title ∧
        after = { c with
          books := c.books.modify (Book.updated bookId (mergedValues record book) title)
            clash_of_updated } := by
  rcases putBook_cases stored with ⟨missing, _, title, _, books, inserted, _⟩ |
    ⟨book, title, found, rfl, titled, rfl⟩
  · exfalso
    rcases holds with has | ⟨_, has⟩
    · obtain ⟨_, found, _⟩ := hasBook_iff_find.mp has
      cases missing.symm.trans found
    · obtain ⟨b, mem, _, tenant, key⟩ := hasBook_iff.mp has
      exact (Table.insert_eq_some.mp inserted).1 b mem (.inr ⟨tenant, key⟩)
  · rcases holds with has | ⟨missing, _⟩
    · obtain ⟨row, same, rfl⟩ := hasBook_iff_find.mp has
      obtain rfl := Option.some.inj (found.symm.trans same)
      exact ⟨book, title, found, rfl, rfl, titled, rfl⟩
    · cases missing.symm.trans found

theorem putAuthorCall_same {call : AuthorCall} {result : Unit}
    (holds : HoldsAuthor bookId tenantId (call.olAuthorKey draws) c)
    (stored : putAuthorCall refuse tenantId bookId draws call c = .ok (result, after)) :
    after = c := by
  obtain ⟨authorId, middle, found, linked⟩ := bind_run_eq_ok.mp stored
  rcases putAuthor_cases found with ⟨author, known, rfl, rfl⟩ |
    ⟨missing, _, text, _, authors, inserted, _⟩
  · rcases holds with ⟨a, mem, tenant, key, link⟩ | ⟨missing, _⟩
    · obtain rfl := Option.some.inj (known.symm.trans (findAuthor_eq_some.mpr ⟨mem, tenant, key⟩))
      rw [putLink_of_mem link] at linked
      exact (Prod.mk.inj (Except.ok.inj linked)).2.symm
    · cases missing.symm.trans known
  · exfalso
    rcases holds with ⟨a, mem, tenant, key, _⟩ | ⟨_, a, mem, tenant, key, _⟩
    · cases missing.symm.trans (findAuthor_eq_some.mpr ⟨mem, tenant, key⟩)
    · exact (Table.insert_eq_some.mp inserted).1 a mem (.inr ⟨tenant, key⟩)

theorem putSubject_same {subject : String} {result : Unit}
    (holds : HoldsSubject bookId subject c)
    (stored : putSubject refuse bookId subject c = .ok (result, after)) : after = c := by
  rcases putSubject_cases stored with ⟨_, same⟩ | ⟨missing, _, bookSubjects, inserted, _⟩
  · exact same
  · exfalso
    rcases holds with has | has
    · exact missing has
    · exact (Table.insert_eq_some.mp inserted).1 _ has rfl

/-- A loop whose every round leaves the catalog alone leaves it alone. -/
theorem forM_same {ι : Type} {body : ι → CatalogM PUnit} {items : List ι} {result : PUnit}
    (each : ∀ i ∈ items, ∀ result after, body i c = .ok (result, after) → after = c)
    (stored : items.forM body c = .ok (result, after)) : after = c := by
  induction items with
  | nil => exact (Prod.mk.inj (Except.ok.inj stored)).2.symm
  | cons i rest ih =>
      obtain ⟨_, middle, first, remaining⟩ := bind_run_eq_ok.mp stored
      obtain rfl := each i List.mem_cons_self _ _ first
      exact ih (fun j mem => each j (List.mem_cons_of_mem _ mem)) remaining

/-- A work whose rows are all there is stored again by changing its book's columns. -/
theorem putRecord_of_holds {result : Unit} {draws' : Draws}
    (holds : Holds bookId tenantId record draws' c)
    (sameKeys : ∀ call ∈ record.authorCalls, call.olAuthorKey draws = call.olAuthorKey draws')
    (stored : putRecord refuse tenantId record draws c = .ok (result, after)) :
    ∃ book title, findBook tenantId record.workKey c = some book ∧ record.title = some title ∧
      after = { c with
        books := c.books.modify (Book.updated book.id (mergedValues record book) title)
          clash_of_updated } := by
  rw [putRecord, bind_run_eq_ok] at stored
  obtain ⟨id, middle, book, remaining⟩ := stored
  rw [bind_run_eq_ok] at remaining
  obtain ⟨_, linked, authors, subjects⟩ := remaining
  have grows := (putBook_grows book).1
  obtain ⟨row, title, found, rfl, rfl, titled, rfl⟩ := found_of_holds holds.book book
  have authorsSame := forM_same (fun call mem _ _ ran => by
    have held := (holds.authors call mem).mono grows
    rw [← sameKeys call mem] at held
    exact putAuthorCall_same held ran) authors
  subst authorsSame
  have subjectsSame := forM_same
    (fun subject mem _ _ ran => putSubject_same ((holds.subjects subject mem).mono grows) ran)
    subjects
  exact ⟨row, title, found, titled, subjectsSame⟩

end TenantLibrary.Ingestion
