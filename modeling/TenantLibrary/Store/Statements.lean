import TenantLibrary.Store.Schema

/-!
What the statements do to the catalog.

One lemma per statement says when it succeeds and which table it changes; the
modules above use these and never unfold a statement. Lookups by a unique key find
the row that has the key. Whatever is sent, the rows stay as their columns keep them
(`Catalog.Whole`).
-/

namespace TenantLibrary.Store

open TenantLibrary.Lib

variable {refuse : Refusal} {c after : Catalog}

@[simp] theorem orUniqueViolation_eq_ok {α : Type} {o : Option α} {a : α} :
    orUniqueViolation o = .ok a ↔ o = some a := by
  cases o <;> simp [orUniqueViolation]

/-- A statement succeeds when its values are not refused and the tables accept them as they
are cut. -/
theorem send_eq_ok {write : CatalogWrite} :
    write.send refuse c = .ok after ↔ refuse write = none ∧ write.cut.run c = .ok after := by
  unfold CatalogWrite.send
  cases refuse write <;> simp

theorem run_insertBook {id tenantId : Uuid} {olWorkKey : String} {values : BookValues} :
    (CatalogWrite.insertBook id tenantId olWorkKey values).run c = .ok after ↔
      ∃ title, values.title = some title ∧ ∃ books,
        c.books.insert (newBook id tenantId olWorkKey values title) = some books ∧
          after = { c with books } := by
  rw [CatalogWrite.run]
  cases values.title with
  | none => simp
  | some title =>
      simp only [bind_eq_ok, orUniqueViolation_eq_ok, Option.some.injEq, exists_eq_left']
      constructor
      · rintro ⟨books, inserted, made⟩
        exact ⟨books, inserted, (Except.ok.inj made).symm⟩
      · rintro ⟨books, inserted, rfl⟩
        exact ⟨books, inserted, rfl⟩

theorem run_updateBook {id : Uuid} {values : BookValues} :
    (CatalogWrite.updateBook id values).run c = .ok after ↔
      ∃ title, values.title = some title ∧
        after = { c with
          books := c.books.modify (Book.assign id values title) Book.clash_of_assign } := by
  rw [CatalogWrite.run]
  cases values.title with
  | none => simp
  | some title => simp [eq_comm]

theorem run_insertAuthor {id tenantId : Uuid} {olAuthorKey : String} {name : Option String} :
    (CatalogWrite.insertAuthor id tenantId olAuthorKey name).run c = .ok after ↔
      ∃ text, name = some text ∧ ∃ authors,
        c.authors.insert ⟨id, tenantId, olAuthorKey, text⟩ = some authors ∧
          after = { c with authors } := by
  cases name with
  | none => simp [CatalogWrite.run]
  | some text =>
      rw [CatalogWrite.run]
      simp only [bind_eq_ok, orUniqueViolation_eq_ok, Option.some.injEq, exists_eq_left']
      constructor
      · rintro ⟨authors, inserted, made⟩
        exact ⟨authors, inserted, (Except.ok.inj made).symm⟩
      · rintro ⟨authors, inserted, rfl⟩
        exact ⟨authors, inserted, rfl⟩

theorem run_insertBookAuthor {bookId authorId : Uuid} :
    (CatalogWrite.insertBookAuthor bookId authorId).run c = .ok after ↔
      (∃ b ∈ c.books.rows, b.id = bookId) ∧ (∃ a ∈ c.authors.rows, a.id = authorId) ∧
        ∃ bookAuthors, c.bookAuthors.insert ⟨bookId, authorId⟩ = some bookAuthors ∧
          after = { c with bookAuthors } := by
  rw [CatalogWrite.run]
  split
  case isTrue referenced =>
    simp only [Bool.and_eq_true, List.any_eq_true, decide_eq_true_eq] at referenced
    simp only [referenced, true_and, bind_eq_ok, orUniqueViolation_eq_ok]
    constructor
    · rintro ⟨bookAuthors, inserted, made⟩
      exact ⟨bookAuthors, inserted, (Except.ok.inj made).symm⟩
    · rintro ⟨bookAuthors, inserted, rfl⟩
      exact ⟨bookAuthors, inserted, rfl⟩
  case isFalse dangling =>
    simp only [Bool.and_eq_true, List.any_eq_true, decide_eq_true_eq] at dangling
    simp only [reduceCtorEq, false_iff]
    rintro ⟨book, author, _⟩
    exact dangling ⟨book, author⟩

theorem run_insertBookSubject {bookId : Uuid} {subject : String} :
    (CatalogWrite.insertBookSubject bookId subject).run c = .ok after ↔
      (∃ b ∈ c.books.rows, b.id = bookId) ∧
        ∃ bookSubjects, c.bookSubjects.insert ⟨bookId, subject⟩ = some bookSubjects ∧
          after = { c with bookSubjects } := by
  rw [CatalogWrite.run]
  split
  case isTrue referenced =>
    simp only [List.any_eq_true, decide_eq_true_eq] at referenced
    simp only [referenced, true_and, bind_eq_ok, orUniqueViolation_eq_ok]
    constructor
    · rintro ⟨bookSubjects, inserted, made⟩
      exact ⟨bookSubjects, inserted, (Except.ok.inj made).symm⟩
    · rintro ⟨bookSubjects, inserted, rfl⟩
      exact ⟨bookSubjects, inserted, rfl⟩
  case isFalse dangling =>
    simp only [List.any_eq_true, decide_eq_true_eq] at dangling
    simp only [reduceCtorEq, false_iff]
    rintro ⟨book, _⟩
    exact dangling book

/-! ### Texts in rows -/

/-- The texts are as their columns keep them. -/
structure Book.Whole (b : Book) : Prop where
  olWorkKey : cut 50 b.olWorkKey = b.olWorkKey
  isbn : b.isbn.map (cut 20) = b.isbn
  title : cut 1000 b.title = b.title
  coverUrl : b.coverUrl.map (cut 500) = b.coverUrl

structure Author.Whole (a : Author) : Prop where
  olAuthorKey : cut 50 a.olAuthorKey = a.olAuthorKey
  name : cut 500 a.name = a.name

structure Catalog.Whole (c : Catalog) : Prop where
  books : ∀ b ∈ c.books.rows, b.Whole
  authors : ∀ a ∈ c.authors.rows, a.Whole
  subjects : ∀ s ∈ c.bookSubjects.rows, cut 500 s.subject = s.subject

theorem Catalog.whole_empty : Catalog.empty.Whole := ⟨nofun, nofun, nofun⟩

theorem map_cut_cut {n : Nat} (text : Option String) :
    (text.map (cut n)).map (cut n) = text.map (cut n) := by
  cases text <;> simp

/-- Values that are cut are whole. -/
theorem whole_values {values : BookValues} {title : String}
    (titled : values.cut.title = some title) :
    values.cut.isbn.map (cut 20) = values.cut.isbn ∧ cut 1000 title = title ∧
      values.cut.coverUrl.map (cut 500) = values.cut.coverUrl := by
  obtain ⟨text, _, rfl⟩ := Option.map_eq_some_iff.mp titled
  exact ⟨map_cut_cut _, cut_cut, map_cut_cut _⟩

/-- No statement leaves a text that its column would cut. -/
theorem Catalog.Whole.send {write : CatalogWrite} (whole : c.Whole)
    (sent : write.send refuse c = .ok after) : after.Whole := by
  have ran := (send_eq_ok.mp sent).2
  cases write with
  | insertBook id tenantId olWorkKey values =>
      obtain ⟨title, titled, books, inserted, rfl⟩ := run_insertBook.mp ran
      refine ⟨fun b mem => ?_, whole.authors, whole.subjects⟩
      rcases Table.mem_insert inserted mem with old | rfl
      · exact whole.books b old
      · obtain ⟨isbn, title, coverUrl⟩ := whole_values titled
        exact ⟨cut_cut, isbn, title, coverUrl⟩
  | updateBook id values =>
      obtain ⟨title, titled, rfl⟩ := run_updateBook.mp ran
      refine ⟨fun b mem => ?_, whole.authors, whole.subjects⟩
      obtain ⟨old, oldMem, rfl⟩ := List.mem_map.mp mem
      have before := whole.books old oldMem
      unfold Book.assign
      split
      case isTrue =>
        obtain ⟨isbn, title, coverUrl⟩ := whole_values titled
        exact ⟨before.olWorkKey, isbn, title, coverUrl⟩
      case isFalse => exact before
  | insertAuthor id tenantId olAuthorKey name =>
      obtain ⟨_, written, authors, inserted, rfl⟩ := run_insertAuthor.mp ran
      obtain ⟨text, _, rfl⟩ := Option.map_eq_some_iff.mp written
      refine ⟨whole.books, fun a mem => ?_, whole.subjects⟩
      rcases Table.mem_insert inserted mem with old | rfl
      · exact whole.authors a old
      · exact ⟨cut_cut, cut_cut⟩
  | insertBookAuthor bookId authorId =>
      obtain ⟨_, _, _, _, rfl⟩ := run_insertBookAuthor.mp ran
      exact ⟨whole.books, whole.authors, whole.subjects⟩
  | insertBookSubject bookId subject =>
      obtain ⟨_, bookSubjects, inserted, rfl⟩ := run_insertBookSubject.mp ran
      refine ⟨whole.books, whole.authors, fun s mem => ?_⟩
      rcases Table.mem_insert inserted mem with old | rfl
      · exact whole.subjects s old
      · exact cut_cut

end TenantLibrary.Store
