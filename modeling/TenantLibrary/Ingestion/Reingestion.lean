import Mathlib.Data.List.Forall2
import TenantLibrary.Ingestion.Growth
import TenantLibrary.Ingestion.Isolation

/-!
Ingesting the same list twice.

The second ingestion meets the rows the first one stored. Books are found by their
work key and merged again, and since merging a field either overwrites it or keeps
it, going through the same list once more ends at the same values. Authors are found
by key, links and subjects by lookup. The one thing that is not found again is an
author stored under an `unknown-` key: the key is drawn anew in each ingestion.
`reingestion_unchanged_iff` says that nothing else can go wrong: the second ingestion
leaves the catalog as it was exactly when every author name of the list has a key.
-/

namespace TenantLibrary.Ingestion

open TenantLibrary.Lib TenantLibrary.OpenLibrary TenantLibrary.Store

variable {refuse : Refusal} {tenantId : Uuid} {record : WorkRecord} {draws : Draws}
  {c after : Catalog}

/-! ### Merging a book's columns -/

/-- A change to the columns of a book: each column is overwritten or kept. -/
structure BookPatch where
  isbn : Option (Option String)
  title : Option String
  firstPublishYear : Option (Option Int)
  coverId : Option (Option Int)
  coverUrl : Option (Option String)
  description : Option (Option String)

namespace BookPatch

def on (patch : BookPatch) (book : Book) : Book :=
  { book with
    isbn := patch.isbn.getD book.isbn
    title := patch.title.getD book.title
    firstPublishYear := patch.firstPublishYear.getD book.firstPublishYear
    coverId := patch.coverId.getD book.coverId
    coverUrl := patch.coverUrl.getD book.coverUrl
    description := patch.description.getD book.description }

/-- The patch that keeps every column. -/
def keep : BookPatch := ⟨none, none, none, none, none, none⟩

/-- One patch after another. -/
def andThen (first second : BookPatch) : BookPatch where
  isbn := second.isbn.or first.isbn
  title := second.title.or first.title
  firstPublishYear := second.firstPublishYear.or first.firstPublishYear
  coverId := second.coverId.or first.coverId
  coverUrl := second.coverUrl.or first.coverUrl
  description := second.description.or first.description

@[simp] theorem on_keep (book : Book) : keep.on book = book := rfl

@[simp] theorem on_andThen (first second : BookPatch) (book : Book) :
    (first.andThen second).on book = second.on (first.on book) := by
  simp [on, andThen, Option.getD_or]

@[simp] theorem identity_on (patch : BookPatch) (book : Book) :
    Book.identity (patch.on book) = Book.identity book := rfl

/-- What a patch overwrites does not matter before it. -/
theorem getD_absorb {α : Type} (p q : Option α) (a : α) :
    p.getD (q.getD (p.getD a)) = p.getD (q.getD a) := by
  cases p <;> rfl

theorem on_absorb (p q : BookPatch) (book : Book) :
    p.on (q.on (p.on book)) = p.on (q.on book) := by
  simp [on, getD_absorb]

end BookPatch

/-- `x or y` overwrites `y` with a truthy `x`. -/
def overwriting {α : Type} [DecidableEq α] (falsy : α) (x : Option α) : Option (Option α) :=
  match x with
  | none => none
  | some a => if a = falsy then none else some (some a)

theorem pyOr_eq_getD {α : Type} [DecidableEq α] (falsy : α) (x y : Option α) :
    pyOr falsy x y = (overwriting falsy x).getD y := by
  cases x with
  | none => rfl
  | some a =>
      simp only [pyOr, overwriting]
      split <;> rfl

theorem pyOr_self {α : Type} [DecidableEq α] (falsy : α) (x : Option α) : pyOr falsy x x = x := by
  cases x with
  | none => rfl
  | some a => simp [pyOr]

/-- The columns a record overwrites. -/
def patchOf (record : WorkRecord) : BookPatch where
  isbn := overwriting "" record.isbn
  title := record.title
  firstPublishYear := overwriting 0 record.firstPublishYear
  coverId := overwriting 0 record.coverId
  coverUrl := overwriting "" (coverUrl record.coverId)
  description := overwriting "" record.description

/-- A row as its columns keep it. The key is not written again. -/
def cutRow (book : Book) : Book :=
  { book with
    isbn := book.isbn.map (cut 20)
    title := cut 1000 book.title
    coverUrl := book.coverUrl.map (cut 500) }

@[simp] theorem identity_cutRow (book : Book) : Book.identity (cutRow book) = Book.identity book :=
  rfl

@[simp] theorem cutRow_cutRow (book : Book) : cutRow (cutRow book) = cutRow book := by
  simp only [cutRow, map_cut_cut, cut_cut]

/-- What a patch keeps can be cut before it or after it. -/
theorem cut_getD {n : Nat} (patch : Option (Option String)) (stored : Option String) :
    (patch.getD (stored.map (cut n))).map (cut n) = (patch.getD stored).map (cut n) := by
  cases patch with
  | none => exact map_cut_cut stored
  | some _ => rfl

theorem cutRow_on_cutRow (patch : BookPatch) (book : Book) :
    cutRow (patch.on (cutRow book)) = cutRow (patch.on book) := by
  have title : cut 1000 (patch.title.getD (cut 1000 book.title)) =
      cut 1000 (patch.title.getD book.title) := by
    cases patch.title <;> simp
  simp [cutRow, BookPatch.on, cut_getD, title]

/-- What a record of a tenant does to a book with this identity. -/
def patchFor (tenantId : Uuid) (record : WorkRecord) (identity : Uuid × Uuid × String) : BookPatch :=
  if identity.2 = (tenantId, record.workKey) then patchOf record else .keep

/-- A book after a record was stored: it is only written when it changes. -/
def mergedRow (tenantId : Uuid) (record : WorkRecord) (book : Book) : Book :=
  let patched := (patchFor tenantId record (Book.identity book)).on book
  if patched = book then book else cutRow patched

/-- A book after a list of records was stored. -/
def mergedByAll (tenantId : Uuid) (records : List WorkRecord) (book : Book) : Book :=
  records.foldl (fun book record => mergedRow tenantId record book) book

@[simp] theorem identity_mergedRow (record : WorkRecord) (book : Book) :
    Book.identity (mergedRow tenantId record book) = Book.identity book := by
  unfold mergedRow
  dsimp only
  split
  · rfl
  · exact (identity_cutRow _).trans (BookPatch.identity_on _ _)

/-- Up to what the columns cut, a record patches the book. -/
theorem cutRow_mergedRow (record : WorkRecord) (book : Book) :
    cutRow (mergedRow tenantId record book) =
      cutRow ((patchFor tenantId record (Book.identity book)).on book) := by
  unfold mergedRow
  dsimp only
  split
  case isTrue same => rw [same]
  case isFalse => exact cutRow_cutRow _

/-- A row that is as its columns keep it stays so. -/
theorem whole_mergedRow {book : Book} (whole : cutRow book = book) :
    cutRow (mergedRow tenantId record book) = mergedRow tenantId record book := by
  unfold mergedRow
  dsimp only
  split
  case isTrue => exact whole
  case isFalse => exact cutRow_cutRow _

theorem whole_mergedByAll {records : List WorkRecord} {book : Book} (whole : cutRow book = book) :
    cutRow (mergedByAll tenantId records book) = mergedByAll tenantId records book := by
  induction records generalizing book with
  | nil => exact whole
  | cons record rest ih => exact ih (whole_mergedRow whole)

@[simp] theorem identity_mergedByAll (records : List WorkRecord) (book : Book) :
    Book.identity (mergedByAll tenantId records book) = Book.identity book := by
  induction records generalizing book with
  | nil => rfl
  | cons record rest ih => exact (ih _).trans (identity_mergedRow record book)

/-- Up to what the columns cut, a list of records patches a book once. -/
theorem mergedByAll_eq_patch (tenantId : Uuid) (records : List WorkRecord)
    (identity : Uuid × Uuid × String) :
    ∃ patch : BookPatch, ∀ book, Book.identity book = identity →
      cutRow (mergedByAll tenantId records book) = cutRow (patch.on book) := by
  induction records with
  | nil => exact ⟨.keep, fun _ _ => rfl⟩
  | cons record rest ih =>
      obtain ⟨patch, patched⟩ := ih
      refine ⟨(patchFor tenantId record identity).andThen patch, fun book same => ?_⟩
      calc cutRow (mergedByAll tenantId rest (mergedRow tenantId record book))
          = cutRow (patch.on (mergedRow tenantId record book)) :=
            patched _ (by rw [identity_mergedRow, same])
        _ = cutRow (patch.on (cutRow (mergedRow tenantId record book))) :=
            (cutRow_on_cutRow patch _).symm
        _ = cutRow (patch.on (cutRow ((patchFor tenantId record identity).on book))) := by
            rw [cutRow_mergedRow, same]
        _ = cutRow (((patchFor tenantId record identity).andThen patch).on book) := by
            rw [cutRow_on_cutRow, BookPatch.on_andThen]

/-- Where a list of records leaves a book alone, it does so after another record was stored,
once that record is stored again. -/
theorem mergedRow_absorb {records : List WorkRecord} {book : Book}
    (settled : mergedByAll tenantId records book = book) :
    mergedRow tenantId record (mergedByAll tenantId records (mergedRow tenantId record book)) =
      mergedRow tenantId record book := by
  let own := patchFor tenantId record (Book.identity book)
  by_cases same : own.on book = book
  · have kept : mergedRow tenantId record book = book := if_pos same
    rw [kept, settled, kept]
  · have written : mergedRow tenantId record book = cutRow (own.on book) := if_neg same
    obtain ⟨patch, patched⟩ := mergedByAll_eq_patch tenantId records (Book.identity book)
    have whole : cutRow (mergedRow tenantId record book) = mergedRow tenantId record book := by
      rw [written, cutRow_cutRow]
    have kept : cutRow (patch.on book) = cutRow book := by rw [← patched book rfl, settled]
    let later := mergedByAll tenantId records (mergedRow tenantId record book)
    have identity : Book.identity later = Book.identity book := by simp [later]
    calc mergedRow tenantId record later
        = cutRow (mergedRow tenantId record later) :=
          (whole_mergedRow (whole_mergedByAll whole)).symm
      _ = cutRow (own.on later) := by rw [cutRow_mergedRow, identity]
      _ = cutRow (own.on (cutRow later)) := (cutRow_on_cutRow own later).symm
      _ = cutRow (own.on (patch.on (mergedRow tenantId record book))) := by
          rw [patched _ (identity_mergedRow record book), cutRow_on_cutRow]
      _ = cutRow (own.on (patch.on (own.on book))) := by
          rw [written, ← cutRow_on_cutRow own, cutRow_on_cutRow patch, cutRow_on_cutRow own]
      _ = cutRow (own.on (patch.on book)) := by rw [BookPatch.on_absorb]
      _ = cutRow (own.on book) := by rw [← cutRow_on_cutRow own, kept, cutRow_on_cutRow own]
      _ = mergedRow tenantId record book := written.symm

/-- A record of another work changes nothing. -/
theorem mergedRow_of_ne {book : Book}
    (other : (Book.identity book).2 ≠ (tenantId, record.workKey)) :
    mergedRow tenantId record book = book := by
  refine if_pos ?_
  rw [patchFor, if_neg other, BookPatch.on_keep]

theorem mergedByAll_of_ne {records : List WorkRecord} {book : Book}
    (other : ∀ record ∈ records, (Book.identity book).2 ≠ (tenantId, record.workKey)) :
    mergedByAll tenantId records book = book := by
  induction records with
  | nil => rfl
  | cons record rest ih =>
      rw [mergedByAll, List.foldl_cons, mergedRow_of_ne (other record List.mem_cons_self)]
      exact ih fun later mem => other later (List.mem_cons_of_mem _ mem)

/-- Merging a record into the book inserted for it changes nothing. -/
theorem mergedRow_insertedBook {id : Uuid} {title : String} (titled : record.title = some title) :
    mergedRow tenantId record (insertedBook id tenantId record title) =
      insertedBook id tenantId record title := by
  by_cases whole : cut 50 record.workKey = record.workKey
  · let row := newBook id tenantId record.workKey (newValues record) title
    have isCut : insertedBook id tenantId record title = cutRow row := by
      rw [insertedBook, whole]
      rfl
    have same : (Book.identity (cutRow row)).2 = (tenantId, record.workKey) := rfl
    have fixed : (patchOf record).on row = row := by
      simp [row, BookPatch.on, patchOf, newBook, newValues, titled, ← pyOr_eq_getD, pyOr_self]
    have isWhole : cutRow (mergedRow tenantId record (cutRow row)) =
        mergedRow tenantId record (cutRow row) := whole_mergedRow (cutRow_cutRow row)
    rw [isCut, ← isWhole, cutRow_mergedRow, patchFor, if_pos same, cutRow_on_cutRow, fixed]
  · refine mergedRow_of_ne fun same => whole ?_
    exact congrArg Prod.snd same

/-- Giving the row that was found the merged columns is merging every row. -/
theorem updated_eq_mergedRow {row : Book} {title : String}
    (found : findBook tenantId record.workKey c = some row) (titled : record.title = some title)
    {book : Book} (mem : book ∈ c.books.rows) :
    Book.updated row.id (mergedValues record row) title book = mergedRow tenantId record book := by
  obtain ⟨rowMem, tenant, key⟩ := findBook_eq_some.mp found
  have unique : book.Clash row → book = row :=
    c.books.eq_of_clash (fun _ _ => Book.Clash.symm) mem rowMem
  by_cases same : book.id = row.id
  · obtain rfl := unique (.inl same)
    have patch : patchFor tenantId record (Book.identity book) = patchOf record :=
      if_pos (by simp [Book.identity, tenant, key])
    have patched : (patchOf record).on book =
        { book with
          isbn := (mergedValues record book).isbn
          title
          firstPublishYear := (mergedValues record book).firstPublishYear
          coverId := (mergedValues record book).coverId
          coverUrl := (mergedValues record book).coverUrl
          description := (mergedValues record book).description } := by
      simp [BookPatch.on, patchOf, mergedValues, titled, pyOr_eq_getD]
    have unchanged : mergedValues record book = book.values ↔ (patchOf record).on book = book := by
      rw [patched]
      cases book
      simp [mergedValues, Book.values, titled]
    unfold Book.updated mergedRow
    rw [patch]
    by_cases kept : mergedValues record book = book.values
    · rw [if_pos kept, if_pos (unchanged.mp kept)]
    · rw [if_neg kept, if_neg fun fixed => kept (unchanged.mpr fixed), patched, Book.assign,
        if_pos rfl]
      rfl
  · rw [updated_of_ne same]
    refine (mergedRow_of_ne fun sameWork => same ?_).symm
    have sameKey : book.tenantId = tenantId ∧ book.olWorkKey = record.workKey := by
      simpa [Book.identity] using sameWork
    rw [unique (.inr ⟨sameKey.1.trans tenant.symm, sameKey.2.trans key.symm⟩)]

/-! ### A list of works, all of them stored -/

/-- Every work of a list is stored, in order; the records the enrichment made of them. -/
inductive StoresAll (tenantId : Uuid) :
    List WorkInput → List WorkRecord → Catalog → Catalog → Prop where
  | nil (c : Catalog) : StoresAll tenantId [] [] c c
  | cons {work : WorkInput} {record : WorkRecord} {rest : List WorkInput}
      {records : List WorkRecord} {c middle after : Catalog}
      (enriched : enrich work.result work.answers = .ok record)
      (stored : putRecord work.refuse tenantId record work.draws c = .ok ((), middle))
      (later : StoresAll tenantId rest records middle after) :
      StoresAll tenantId (work :: rest) (record :: records) c after

theorem StoresAll.grows {works : List WorkInput} {records : List WorkRecord}
    (stores : StoresAll tenantId works records c after) : Grows c after := by
  induction stores with
  | nil c => exact .refl c
  | cons _ stored _ ih =>
      obtain ⟨_, _, _, _, grows, _⟩ := putRecord_holds stored
      exact grows.trans ih

/-- At the end the rows of every work are there. -/
theorem StoresAll.holds {works : List WorkInput} {records : List WorkRecord}
    (stores : StoresAll tenantId works records c after) :
    ∀ work ∈ works, ∃ record ∈ records, enrich work.result work.answers = .ok record ∧
      ∃ bookId, Holds bookId tenantId record work.draws after := by
  induction stores with
  | nil => simp
  | @cons first record rest records c middle after enriched stored later ih =>
      intro work mem
      rcases List.mem_cons.mp mem with rfl | inRest
      · obtain ⟨bookId, _, _, _, _, holds⟩ := putRecord_holds stored
        exact ⟨record, List.mem_cons_self, enriched, bookId, holds.mono later.grows⟩
      · obtain ⟨other, otherMem, made, held⟩ := ih work inRest
        exact ⟨other, List.mem_cons_of_mem _ otherMem, made, held⟩

/-- Every record is made of a work and its rows are there. -/
theorem StoresAll.record_holds {works : List WorkInput} {records : List WorkRecord}
    (stores : StoresAll tenantId works records c after) :
    ∀ record ∈ records, ∃ work ∈ works, enrich work.result work.answers = .ok record ∧
      ∃ bookId, Holds bookId tenantId record work.draws after := by
  induction stores with
  | nil => simp
  | @cons work first rest records c middle after enriched stored later ih =>
      intro record mem
      rcases List.mem_cons.mp mem with rfl | inRest
      · obtain ⟨bookId, _, _, _, _, holds⟩ := putRecord_holds stored
        exact ⟨work, List.mem_cons_self, enriched, bookId, holds.mono later.grows⟩
      · obtain ⟨other, otherMem, made, held⟩ := ih record inRest
        exact ⟨other, List.mem_cons_of_mem _ otherMem, made, held⟩

/-- Storing one work: the books afterwards are the old ones and a possible new one,
each with the record merged. -/
theorem putRecord_books {result : Unit}
    (stored : putRecord refuse tenantId record draws c = .ok (result, after)) :
    (after.books.rows = c.books.rows.map (mergedRow tenantId record)) ∨
    ∃ book, after.books.rows = c.books.rows ++ [book] ∧ mergedRow tenantId record book = book ∧
      (Book.identity book).2 = (tenantId, cut 50 record.workKey) ∧
      ∀ old ∈ c.books.rows, (Book.identity old).2 ≠ (tenantId, record.workKey) ∧
        (Book.identity old).2 ≠ (tenantId, cut 50 record.workKey) := by
  obtain ⟨bookId, middle, put, ⟨_, sameBooks⟩, _⟩ := putRecord_holds stored
  rw [sameBooks]
  rcases putBook_cases put with ⟨absent, _, title, titled, books, inserted, rfl⟩ |
    ⟨row, title, found, _, titled, rfl⟩
  · obtain ⟨free, rows⟩ := Table.insert_eq_some.mp inserted
    refine .inr ⟨_, rows, mergedRow_insertedBook titled, rfl, fun old mem => ⟨?_, ?_⟩⟩
    · intro same
      have sameKey : old.tenantId = tenantId ∧ old.olWorkKey = record.workKey := by
        simpa [Book.identity] using same
      rw [findBook_eq_some.mpr ⟨mem, sameKey⟩] at absent
      cases absent
    · exact fun same => free old mem (.inr (Prod.mk.inj same))
  · left
    rw [Table.rows_modify]
    exact List.map_congr_left fun book mem => updated_eq_mergedRow found titled mem

/-- Every book is as merging the records once more would leave it. -/
def Settled (tenantId : Uuid) (records : List WorkRecord) (c : Catalog) : Prop :=
  ∀ book ∈ c.books.rows, mergedByAll tenantId records book = book

/-- Every record's work has a book. -/
def BooksOf (tenantId : Uuid) (records : List WorkRecord) (c : Catalog) : Prop :=
  ∀ record ∈ records, ∃ book ∈ c.books.rows,
    (Book.identity book).2 = (tenantId, record.workKey) ∨
      (Book.identity book).2 = (tenantId, cut 50 record.workKey)

theorem BooksOf.mono {records : List WorkRecord} (has : BooksOf tenantId records c)
    (grows : Grows c after) : BooksOf tenantId records after := by
  intro record mem
  obtain ⟨book, bookMem, same⟩ := has record mem
  obtain ⟨later, laterMem, kept⟩ :=
    List.mem_map.mp (grows.books.subset (List.mem_map_of_mem bookMem))
  exact ⟨later, laterMem, kept ▸ same⟩

theorem HoldsBook.exists_row {bookId : Uuid} {olWorkKey : String}
    (holds : HoldsBook bookId tenantId olWorkKey c) :
    ∃ book ∈ c.books.rows, (Book.identity book).2 = (tenantId, olWorkKey) ∨
      (Book.identity book).2 = (tenantId, cut 50 olWorkKey) := by
  rcases holds with has | ⟨_, has⟩
  · obtain ⟨book, mem, identity⟩ := List.mem_map.mp has
    exact ⟨book, mem, .inl (congrArg Prod.snd identity)⟩
  · obtain ⟨book, mem, identity⟩ := List.mem_map.mp has
    exact ⟨book, mem, .inr (congrArg Prod.snd identity)⟩

/-- Storing one more work keeps the books settled. -/
theorem settled_snoc {records : List WorkRecord} {result : Unit}
    (settled : Settled tenantId records c) (has : BooksOf tenantId records c)
    (stored : putRecord refuse tenantId record draws c = .ok (result, after)) :
    Settled tenantId (records ++ [record]) after := by
  intro book mem
  rw [mergedByAll, List.foldl_append, List.foldl_cons, List.foldl_nil]
  change mergedRow tenantId record (mergedByAll tenantId records book) = book
  rcases putRecord_books stored with rows | ⟨new, rows, fixed, identity, noOther⟩
  · rw [rows] at mem
    obtain ⟨old, oldMem, rfl⟩ := List.mem_map.mp mem
    exact mergedRow_absorb (settled old oldMem)
  · rw [rows] at mem
    rcases List.mem_append.mp mem with old | last
    · rw [settled book old, mergedRow_of_ne (noOther book old).1]
    · obtain rfl := List.mem_singleton.mp last
      -- a record of the same work stored before would have left a book
      rw [mergedByAll_of_ne, fixed]
      intro earlier earlierMem same
      obtain ⟨old, oldMem, oldIdentity⟩ := has earlier earlierMem
      have key : earlier.workKey = cut 50 record.workKey :=
        congrArg Prod.snd (same.symm.trans identity)
      rw [key, cut_cut, or_self] at oldIdentity
      exact (noOther old oldMem).2 oldIdentity

/-- After a list of works the books are settled. -/
theorem StoresAll.settled {works : List WorkInput} {before records : List WorkRecord}
    (stores : StoresAll tenantId works records c after) (settled : Settled tenantId before c)
    (has : BooksOf tenantId before c) : Settled tenantId (before ++ records) after := by
  induction stores generalizing before with
  | nil c => simpa using settled
  | @cons work record rest records c middle after _ stored _ ih =>
      obtain ⟨bookId, _, _, _, grows, holds⟩ := putRecord_holds stored
      have hasNext : BooksOf tenantId (before ++ [record]) middle := by
        intro earlier mem
        rcases List.mem_append.mp mem with old | last
        · exact has.mono grows earlier old
        · obtain rfl := List.mem_singleton.mp last
          exact holds.book.exists_row
      simpa using ih (settled_snoc settled has stored) hasNext

/-! ### The same list again -/

/-- Every author name of a search result has a key at its position. -/
def Covered (result : SearchResult) : Prop :=
  (result.authorNames.getD []).length ≤ result.authorKeys.length

instance (result : SearchResult) : Decidable (Covered result) :=
  inferInstanceAs (Decidable (_ ≤ _))

/-- The references of a work detail are at least as many as the names they resolve to. -/
theorem length_of_resolveAuthors {author : Nat → Except Failure AuthorDetail} {refs : List String}
    {names : List (Option String)} (resolved : resolveAuthors author refs = .ok names) :
    names.length ≤ refs.length := by
  induction refs generalizing author names with
  | nil =>
      obtain rfl := Except.ok.inj resolved
      exact Nat.le_refl 0
  | cons ref rest ih =>
      rcases resolveAuthors_cons.mp resolved with ⟨_, later, -, followed, rfl⟩ | ⟨_, -, followed⟩
      · exact Nat.succ_le_succ (ih followed)
      · exact Nat.le_succ_of_le (ih followed)

/-- The enrichment adds no name without a key. -/
theorem covered_iff {result : SearchResult} {answers : Answers}
    (enriched : enrich result answers = .ok record) :
    Covered result ↔ record.authorNames.length ≤ record.authorKeys.length := by
  obtain ⟨names, named, ⟨sameNames, sameKeys, _⟩ | ⟨rfl, _, _, _, resolved, sameKeys⟩⟩ :=
    enrich_authors enriched
  · simp [Covered, named, sameNames, sameKeys]
  · have bounded := length_of_resolveAuthors resolved
    simp [Covered, named, sameKeys, bounded]

/-- Where every name has a key, the keys do not depend on what is drawn. -/
theorem olAuthorKey_of_covered (covered : record.authorNames.length ≤ record.authorKeys.length)
    {call : AuthorCall} (mem : call ∈ record.authorCalls) (draws draws' : Draws) :
    call.olAuthorKey draws = call.olAuthorKey draws' := by
  obtain ⟨⟨name, i⟩, indexed, rfl⟩ := List.mem_map.mp mem
  obtain ⟨inNames, _⟩ := List.getElem?_eq_some_iff.mp (List.mem_zipIdx_iff_getElem?.mp indexed)
  have inKeys : i < record.authorKeys.length := Nat.lt_of_lt_of_le inNames covered
  simp [AuthorCall.olAuthorKey, List.getElem?_eq_getElem inKeys]

/-- Where some name has no key, an author is looked up under a drawn one. -/
theorem drawn_of_not_covered (uncovered : ¬ record.authorNames.length ≤ record.authorKeys.length) :
    ∃ call ∈ record.authorCalls, ∀ draws,
      call.olAuthorKey draws = "unknown-" ++ draws.keySuffix call.index := by
  have inNames : record.authorKeys.length < record.authorNames.length := Nat.lt_of_not_le uncovered
  refine ⟨⟨record.authorKeys.length, record.authorKeys[record.authorKeys.length]?,
    record.authorNames[record.authorKeys.length]⟩, ?_, fun draws => ?_⟩
  · exact List.mem_map.mpr ⟨(record.authorNames[record.authorKeys.length], record.authorKeys.length),
      List.mem_zipIdx_iff_getElem?.mpr (List.getElem?_eq_getElem inNames), rfl⟩
  · simp [AuthorCall.olAuthorKey]

/-- The rows of a covered record are there, under whatever draws. -/
def Stored (tenantId : Uuid) (c : Catalog) (record : WorkRecord) : Prop :=
  record.authorNames.length ≤ record.authorKeys.length ∧
    ∃ bookId draws, Holds bookId tenantId record draws c

/-- Going through stored records again merges the books and does nothing else. -/
theorem StoresAll.again {works : List WorkInput} {records : List WorkRecord}
    (stores : StoresAll tenantId works records c after)
    (stored : ∀ record ∈ records, Stored tenantId c record) :
    after.books.rows = c.books.rows.map (mergedByAll tenantId records) ∧
      after.authors = c.authors ∧ after.bookAuthors = c.bookAuthors ∧
      after.bookSubjects = c.bookSubjects := by
  induction stores with
  | nil c => exact ⟨(List.map_id _).symm, rfl, rfl, rfl⟩
  | @cons work record rest records c middle after _ first later ih =>
      obtain ⟨covered, bookId, draws, holds⟩ := stored record List.mem_cons_self
      obtain ⟨row, title, found, titled, rfl⟩ := putRecord_of_holds holds
        (fun call mem => olAuthorKey_of_covered covered mem work.draws draws) first
      obtain ⟨_, _, _, _, grows, _⟩ := putRecord_holds first
      obtain ⟨books, authors, bookAuthors, bookSubjects⟩ := ih fun record mem => by
        obtain ⟨covered, bookId, draws, holds⟩ := stored record (List.mem_cons_of_mem _ mem)
        exact ⟨covered, bookId, draws, holds.mono grows⟩
      refine ⟨?_, authors, bookAuthors, bookSubjects⟩
      rw [books, Table.rows_modify, List.map_map]
      apply List.map_congr_left
      intro book mem
      rw [Function.comp_apply, updated_eq_mergedRow found titled mem]
      rfl

/-- Storing a list of works whose names all have keys once more changes nothing. -/
theorem storesAll_again_eq {works works' : List WorkInput} {records : List WorkRecord}
    {last : Catalog} (first : StoresAll tenantId works records c after)
    (covered : ∀ work ∈ works, Covered work.result)
    (second : StoresAll tenantId works' records after last) : last = after := by
  have stored : ∀ record ∈ records, Stored tenantId after record := by
    intro record mem
    obtain ⟨work, workMem, enriched, bookId, holds⟩ := first.record_holds record mem
    exact ⟨(covered_iff enriched).mp (covered work workMem), bookId, work.draws, holds⟩
  obtain ⟨books, authors, bookAuthors, bookSubjects⟩ := second.again stored
  have settled : Settled tenantId ([] ++ records) after :=
    first.settled (fun _ _ => rfl) fun _ mem => absurd mem List.not_mem_nil
  have sameBooks : last.books = after.books :=
    Table.ext (books.trans ((List.map_congr_left settled).trans (List.map_id _)))
  cases last
  cases after
  simp_all

/-- No drawn suffix makes a key the tenant has an author under. -/
def FreshKeys (tenantId : Uuid) (works : List WorkInput) (c : Catalog) : Prop :=
  ∀ work ∈ works, ∀ i, ∀ author ∈ c.authors.rows, author.tenantId = tenantId →
    author.olAuthorKey ≠ "unknown-" ++ work.draws.keySuffix i

/-- The authors are the same, or there are more. -/
theorem Grows.authors_or (grows : Grows c after) :
    after.authors = c.authors ∨ c.authors.rows.length < after.authors.rows.length :=
  grows.authors.eq_or_longer.imp_left Table.ext

theorem Grows.authors_le (grows : Grows c after) :
    c.authors.rows.length ≤ after.authors.rows.length := by
  rcases grows.authors_or with same | longer
  · rw [same]
  · exact longer.le

/-- An author under a key that is not known is a new one. -/
theorem longer_putAuthorCall {bookId : Uuid} {call : AuthorCall} {result : Unit}
    (unknown : ¬ Known tenantId c (call.olAuthorKey draws))
    (stored : putAuthorCall refuse tenantId bookId draws call c = .ok (result, after)) :
    c.authors.rows.length < after.authors.rows.length := by
  obtain ⟨authorId, middle, put, linked⟩ := bind_run_eq_ok.mp stored
  rw [(putLink_grows linked).2.1]
  rcases putAuthor_cases put with ⟨author, found, _⟩ | ⟨_, _, _, _, authors, inserted, rfl⟩
  · exact absurd ⟨author, findAuthor_eq_some.mp found⟩ unknown
  · simp [(Table.insert_eq_some.mp inserted).2]

theorem longer_putAuthorCalls {bookId : Uuid} {calls : List AuthorCall} {result : PUnit}
    {call : AuthorCall} (mem : call ∈ calls)
    (unknown : ¬ Known tenantId c (call.olAuthorKey draws))
    (stored : calls.forM (putAuthorCall refuse tenantId bookId draws) c = .ok (result, after)) :
    c.authors.rows.length < after.authors.rows.length := by
  induction calls generalizing c with
  | nil => cases mem
  | cons first rest ih =>
      obtain ⟨_, middle, ran, remaining⟩ := bind_run_eq_ok.mp stored
      have later : Grows middle after := (forM_grows (fun _ _ => True) (fun _ _ _ _ _ => trivial)
        (fun _ _ _ _ ran => ⟨(putAuthorCall_grows ran).1, trivial⟩) remaining).1.1
      rcases List.mem_cons.mp mem with rfl | inRest
      · exact (longer_putAuthorCall unknown ran).trans_le later.authors_le
      · rcases (putAuthorCall_grows ran).1.1.authors_or with same | longer
        · rw [← same]
          exact ih inRest (by unfold Known at unknown ⊢; rwa [same]) remaining
        · exact longer.trans_le later.authors_le

/-- Storing a list with a name without a key adds an author. -/
theorem StoresAll.longer {works' : List WorkInput} {records : List WorkRecord}
    (stores : StoresAll tenantId works' records c after) (fresh : FreshKeys tenantId works' c)
    (uncovered : ∃ work ∈ works', ¬ Covered work.result) :
    c.authors.rows.length < after.authors.rows.length := by
  induction stores with
  | nil => obtain ⟨_, mem, _⟩ := uncovered; cases mem
  | @cons work record rest records c middle after enriched stored later ih =>
      obtain ⟨_, _, _, _, grows, _⟩ := putRecord_holds stored
      obtain ⟨first, mem, uncovered⟩ := uncovered
      rcases List.mem_cons.mp mem with rfl | inRest
      · rw [covered_iff enriched] at uncovered
        obtain ⟨call, called, drawn⟩ := drawn_of_not_covered uncovered
        obtain ⟨bookId, booked, put, remaining⟩ := bind_run_eq_ok.mp stored
        obtain ⟨_, linked, authors, subjects⟩ := bind_run_eq_ok.mp remaining
        have sameAuthors : booked.authors = c.authors := by
          rcases putBook_cases put with ⟨_, _, _, _, _, _, rfl⟩ | ⟨_, _, _, _, _, rfl⟩ <;> rfl
        have unknown : ¬ Known tenantId booked (call.olAuthorKey first.draws) := by
          rintro ⟨author, authorMem, tenant, key⟩
          exact fresh first List.mem_cons_self call.index author (sameAuthors ▸ authorMem) tenant
            (key.trans (drawn first.draws))
        have grown := longer_putAuthorCalls called unknown authors
        have rest : Grows linked middle := (forM_grows (fun _ _ => True)
          (fun _ _ _ _ _ => trivial)
          (fun _ _ _ _ ran => ⟨(putSubject_grows ran).1, trivial⟩) subjects).1.1
        rw [sameAuthors] at grown
        exact grown.trans_le (rest.authors_le.trans later.grows.authors_le)
      · rcases grows.authors_or with same | longer
        · rw [← same]
          refine ih (fun other otherMem i => ?_) ⟨first, inRest, uncovered⟩
          rw [same]
          exact fresh other (List.mem_cons_of_mem _ otherMem) i
        · exact longer.trans_le later.grows.authors_le

/-! ### Two ingestions -/

/-- A work met again: the same result, the same answers of Open Library; new draws. -/
def SameAnswers (work again : WorkInput) : Prop :=
  again.result = work.result ∧ again.answers = work.answers

/-- The ingestion returns with every work stored. -/
def StoresEverything (str : SessionError DbError Failure → String) (search : Search)
    (request : IngestRequest) (db after : Database) : Prop :=
  ∃ log, SessionM.runOn (ingest str search request) (.opened db) = (.ok log, .opened after) ∧
    log.status = .completed ∧ log.worksFailed = 0

/-- Where no work fails on its own, what the database accepts is stored. -/
theorem storesAll_of_noRefusal {works again : List WorkInput} {records : List WorkRecord}
    {before last : Catalog} (first : StoresAll tenantId works records before last)
    (same : List.Forall₂ SameAnswers works again) (accepted : NoRefusal tenantId again c) :
    StoresAll tenantId again records c (storedInIsolation tenantId again c).1 := by
  induction first generalizing again c with
  | nil =>
      cases same
      exact .nil c
  | @cons _ record _ _ _ _ _ enriched _ _ ih =>
      cases same with
      | @cons _ work _ rest sameWork sameRest =>
          rw [← sameWork.1, ← sameWork.2] at enriched
          rw [NoRefusal, putWork, enriched] at accepted
          rw [storedInIsolation, putWork, enriched]
          dsimp only at accepted ⊢
          cases stored : (putRecord work.refuse tenantId record work.draws).run c with
          | ok reached =>
              obtain ⟨_, middle⟩ := reached
              rw [stored] at accepted
              exact .cons enriched stored (ih sameRest accepted)
          | error error =>
              rw [stored] at accepted
              exact accepted.elim

/-- A batch whose every work was stored stores all of them. -/
theorem storesAll_of_count {works : List WorkInput}
    (counted : (storedInIsolation tenantId works c).2 = works.length) :
    ∃ records, StoresAll tenantId works records c (storedInIsolation tenantId works c).1 := by
  induction works generalizing c with
  | nil => exact ⟨[], .nil c⟩
  | cons work rest ih =>
      have bounded := storedInIsolation_le_length tenantId rest c
      rw [storedInIsolation] at counted ⊢
      cases outcome : putWork tenantId work c with
      | stored after =>
          rw [outcome] at counted
          obtain ⟨records, stores⟩ := ih (Nat.succ.inj counted)
          unfold putWork at outcome
          cases enriched : enrich work.result work.answers with
          | error failure =>
              rw [enriched] at outcome
              cases outcome
          | ok record =>
              rw [enriched] at outcome
              dsimp only at outcome
              split at outcome
              case h_1 stored =>
                obtain rfl := Outcome.stored.inj outcome
                exact ⟨_, .cons enriched stored stores⟩
              case h_2 => cases outcome
      | failed failure =>
          rw [outcome] at counted
          simp only [List.length_cons] at counted
          omega
      | refused error =>
          rw [outcome] at counted
          simp only [List.length_cons] at counted
          omega

/-- An ingestion that stores everything stores the works its search found. -/
theorem storesAll_of_storesEverything {str : SessionError DbError Failure → String}
    {search : Search} {request : IngestRequest} {db after : Database} {works : List WorkInput}
    (found : search.run request.queryType = .ok works)
    (stores : StoresEverything str search request db after) :
    ∃ records, StoresAll request.tenantId works records db.catalog after.catalog := by
  obtain ⟨log, returned, _, noneFailed⟩ := stores
  have fresh : ∀ log ∈ db.logs.rows, log.id ≠ request.logId := by
    by_contra taken
    rw [runOn_ingest_taken str search request db taken] at returned
    cases returned
  have accepted : NoRefusal request.tenantId works db.catalog := by
    by_contra refused
    obtain ⟨s, raised, _⟩ := runOn_ingest_refused str search request db found fresh refused
    rw [raised] at returned
    cases returned
  obtain ⟨log', after', returned', isLog, catalog, _⟩ :=
    runOn_ingest_accepted str search request db found fresh accepted
  obtain ⟨rfl, rfl⟩ : log' = log ∧ after' = after := by
    rw [returned'] at returned
    simpa [Session.opened] using returned
  have bounded := storedInIsolation_le_length request.tenantId works db.catalog
  have counted : (storedInIsolation request.tenantId works db.catalog).2 = works.length := by
    rw [isLog] at noneFailed
    have none : works.length - (storedInIsolation request.tenantId works db.catalog).2 = 0 :=
      noneFailed
    omega
  rw [catalog]
  exact storesAll_of_count counted

/-- Whether the names have keys depends on the search results alone. -/
theorem covered_of_same {works works' : List WorkInput}
    (same : List.Forall₂ SameAnswers works works') (covered : ∀ work ∈ works', Covered work.result) :
    ∀ work ∈ works, Covered work.result := by
  induction same with
  | nil => simp
  | cons first _ ih =>
      intro work mem
      rcases List.mem_cons.mp mem with rfl | later
      · exact first.1 ▸ covered _ List.mem_cons_self
      · exact ih (fun other otherMem => covered other (List.mem_cons_of_mem _ otherMem)) work later

/-- For every database, tenant and list of search results whose ingestion stores every
work: ingesting the list again with the same answers leaves the catalog as it was if
every author name of the list has a key. If the second ingestion also stores every work
and draws new keys, it leaves the catalog as it was only then. -/
theorem reingestion_unchanged_iff {str : SessionError DbError Failure → String}
    {search search' : Search} {request request' : IngestRequest} {works works' : List WorkInput}
    {db after : Database} (found : search.run request.queryType = .ok works)
    (found' : search'.run request'.queryType = .ok works')
    (sameTenant : request'.tenantId = request.tenantId)
    (same : List.Forall₂ SameAnswers works works')
    (first : StoresEverything str search request db after) :
    ((∀ work ∈ works, Covered work.result) →
      (SessionM.runOn (ingest str search' request') (.opened after)).2.committed.catalog =
        after.catalog) ∧
    ∀ last, StoresEverything str search' request' after last →
      FreshKeys request.tenantId works' after.catalog →
      (last.catalog = after.catalog ↔ ∀ work ∈ works, Covered work.result) := by
  obtain ⟨records, stores⟩ := storesAll_of_storesEverything found first
  have unchanged (covered : ∀ work ∈ works, Covered work.result) :
      (SessionM.runOn (ingest str search' request') (.opened after)).2.committed.catalog =
        after.catalog := by
    by_cases fresh : ∀ log ∈ after.logs.rows, log.id ≠ request'.logId
    · by_cases accepted : NoRefusal request'.tenantId works' after.catalog
      · obtain ⟨_, last, returned, _, catalog, _⟩ :=
          runOn_ingest_accepted str search' request' after found' fresh accepted
        rw [returned]
        refine catalog.trans ?_
        rw [sameTenant] at accepted ⊢
        exact storesAll_again_eq stores covered (storesAll_of_noRefusal stores same accepted)
      · obtain ⟨s, raised, committed, _⟩ :=
          runOn_ingest_refused str search' request' after found' fresh accepted
        rw [raised]
        exact congrArg Database.catalog committed
    · rw [runOn_ingest_taken str search' request' after fresh]
      rfl
  refine ⟨unchanged, fun last second freshKeys => ⟨fun sameCatalog => ?_, fun covered => ?_⟩⟩
  · obtain ⟨records', again⟩ := storesAll_of_storesEverything found' second
    rw [sameTenant] at again
    refine covered_of_same same ?_
    by_contra uncovered
    simp only [not_forall] at uncovered
    obtain ⟨work, mem, uncovered⟩ := uncovered
    have longer := again.longer freshKeys ⟨work, mem, uncovered⟩
    rw [sameCatalog] at longer
    exact lt_irrefl _ longer
  · obtain ⟨_, returned, _⟩ := second
    have committed := unchanged covered
    rwa [returned] at committed

/-- A work with two author names and the given keys. -/
def twoAuthors (keys : List String) (id : Uuid) (suffix : String) : WorkInput where
  result :=
    { workKey := "OL1W"
      title := some "One"
      authorNames := some ["Ann", "Bea"]
      authorKeys := keys
      firstPublishYear := none
      coverId := some 7
      subjects := ["fiction"]
      isbn := none }
  answers := ⟨.error (.openLibraryError ""), fun _ => .error (.openLibraryError "")⟩
  draws := ⟨id, fun i => id + i + 1, fun _ => suffix⟩
  refuse := Refusal.never

/-- The database after a list of search results was ingested. -/
def ingested (works : List WorkInput) (request : IngestRequest) (db : Database) : Database :=
  (SessionM.runOn (ingest (fun _ => "") (searchFinding works) request) (.opened db)).2.committed

theorem run_searchFinding (works : List WorkInput) (queryType : QueryType) :
    (searchFinding works).run queryType = .ok works := by
  cases queryType <;> rfl

/-- A batch that the database accepts and in which no work fails is stored. -/
theorem storesEverything_ingested (works : List WorkInput) (request : IngestRequest)
    (db : Database) (fresh : ∀ log ∈ db.logs.rows, log.id ≠ request.logId)
    (accepted : NoRefusal request.tenantId works db.catalog)
    (counted : (storedInIsolation request.tenantId works db.catalog).2 = works.length) :
    StoresEverything (fun _ => "") (searchFinding works) request db
      (ingested works request db) := by
  obtain ⟨log, after, returned, isLog, _⟩ := runOn_ingest_accepted (fun _ => "")
    (searchFinding works) request db (run_searchFinding works _) fresh accepted
  have reached : ingested works request db = after := by
    rw [ingested, returned]
    rfl
  rw [reached]
  refine ⟨log, returned, ?_, ?_⟩
  · rw [isLog]
    rfl
  · rw [isLog]
    simp [IngestRequest.completedLog, counted]

/-- A second request for the same list. -/
def laterRequest : IngestRequest := { sampleRequest with logId := 100 }

/-- Ann is found under her key; Bea has none and is stored again under a new one. -/
theorem unknown_author_stored_again :
    StoresEverything (fun _ => "") (searchFinding [twoAuthors ["OL1A"] 10 "aaaaaaaa"])
        sampleRequest Database.empty
        (ingested [twoAuthors ["OL1A"] 10 "aaaaaaaa"] sampleRequest Database.empty) ∧
      (ingested [twoAuthors ["OL1A"] 20 "bbbbbbbb"] laterRequest
        (ingested [twoAuthors ["OL1A"] 10 "aaaaaaaa"] sampleRequest Database.empty)).catalog ≠
      (ingested [twoAuthors ["OL1A"] 10 "aaaaaaaa"] sampleRequest Database.empty).catalog := by
  constructor
  · exact storesEverything_ingested _ _ _ (fresh_empty 99) (by decide +kernel) (by decide +kernel)
  · intro same
    have sameAuthors := congrArg (fun c => c.authors.rows.length) same
    revert sameAuthors
    decide +kernel

/-- With a key for each of the two, the second ingestion changes nothing. -/
theorem known_authors_found_again :
    (ingested [twoAuthors ["OL1A", "OL2A"] 20 "bbbbbbbb"] laterRequest
        (ingested [twoAuthors ["OL1A", "OL2A"] 10 "aaaaaaaa"] sampleRequest
          Database.empty)).catalog =
      (ingested [twoAuthors ["OL1A", "OL2A"] 10 "aaaaaaaa"] sampleRequest
        Database.empty).catalog := by
  have twice := reingestion_unchanged_iff
    (run_searchFinding [twoAuthors ["OL1A", "OL2A"] 10 "aaaaaaaa"] sampleRequest.queryType)
    (run_searchFinding [twoAuthors ["OL1A", "OL2A"] 20 "bbbbbbbb"] laterRequest.queryType) rfl
    (.cons ⟨rfl, rfl⟩ .nil)
    (storesEverything_ingested _ _ _ (fresh_empty 99) (by decide +kernel) (by decide +kernel))
  have second := storesEverything_ingested [twoAuthors ["OL1A", "OL2A"] 20 "bbbbbbbb"]
    laterRequest (ingested [twoAuthors ["OL1A", "OL2A"] 10 "aaaaaaaa"] sampleRequest
      Database.empty) (by decide +kernel) (by decide +kernel) (by decide +kernel)
  refine (twice.2 _ second ?_).mpr (by decide +kernel)
  -- the suffix is the same for every position
  have fresh : ∀ author ∈ (ingested [twoAuthors ["OL1A", "OL2A"] 10 "aaaaaaaa"] sampleRequest
      Database.empty).catalog.authors.rows,
      author.tenantId = 1 → author.olAuthorKey ≠ "unknown-bbbbbbbb" := by decide +kernel
  rintro work mem _ author authorMem tenant
  obtain rfl := List.mem_singleton.mp mem
  exact fresh author authorMem tenant

end TenantLibrary.Ingestion
