import TenantLibrary.Api.Pagination
import TenantLibrary.Ingestion.Service

/-!
Book listing, search and detail (`app/services/book_service.py`).

The subqueries on authors and subjects, and the loads of a book's authors and subjects,
run over the link tables of all tenants; only the books are filtered by tenant. What the
database's locale decides, the case of letters and the order of titles, is a `Collation`.
Titles that compare equal stand in order of insertion, as do the authors and the subjects
of a book.
-/

namespace TenantLibrary.Books

open TenantLibrary.Lib TenantLibrary.OpenLibrary TenantLibrary.Store TenantLibrary.Ingestion
  TenantLibrary.Api

/-! ### ILIKE -/

structure Collation where
  lower : String → String
  le : String → String → Bool

/-- `text LIKE pattern`: `%` stands for any text, `_` for any character, and a backslash
takes the next character literally. -/
def like : List Char → List Char → Bool
  | [], text => text.isEmpty
  | '\\' :: c :: pattern, text =>
      match text with
      | [] => false
      | first :: rest => first = c && like pattern rest
  | '%' :: pattern, text => text.tails.any (like pattern)
  | '_' :: pattern, text =>
      match text with
      | [] => false
      | _ :: rest => like pattern rest
  | c :: pattern, text =>
      match text with
      | [] => false
      | first :: rest => first = c && like pattern rest

def Collation.ilike (collation : Collation) (text pattern : String) : Bool :=
  like (collation.lower pattern).toList (collation.lower text).toList

/-! ### Schemas -/

/-- The filters of `list_books`. -/
structure BookFilters where
  author : Option String
  subject : Option String
  yearFrom : Option Int
  yearTo : Option Int
  q : Option String
deriving DecidableEq, Repr

structure BookSummary where
  id : Uuid
  olWorkKey : String
  isbn : Option String
  title : String
  authors : List String
  firstPublishYear : Option Int
  coverUrl : Option String
  subjects : List String
deriving DecidableEq, Repr

structure AuthorSummary where
  id : Uuid
  olAuthorKey : String
  name : String
deriving DecidableEq, Repr

/-- `BookDetail` without its timestamps. No statement writes the `birth_date` of an
author, so `AuthorSummary` is without it. -/
structure BookDetail where
  id : Uuid
  olWorkKey : String
  isbn : Option String
  title : String
  authors : List AuthorSummary
  firstPublishYear : Option Int
  coverUrl : Option String
  description : Option String
  subjects : List String
deriving DecidableEq, Repr

/-! ### Queries -/

/-- `book.authors`, over the `book_authors` table. -/
def authorsOf (c : Catalog) (bookId : Uuid) : List Author :=
  (c.bookAuthors.rows.filter (·.bookId = bookId)).filterMap fun l =>
    c.authors.rows.find? (·.id = l.authorId)

/-- `book.subjects`. -/
def subjectsOf (c : Catalog) (bookId : Uuid) : List String :=
  (c.bookSubjects.rows.filter (·.bookId = bookId)).map (·.subject)

/-- The subquery of the author filter: some linked author's name matches. -/
def hasAuthorLike (collation : Collation) (pattern : String) (c : Catalog) (bookId : Uuid) : Bool :=
  c.bookAuthors.rows.any fun l =>
    l.bookId = bookId && c.authors.rows.any fun a =>
      a.id = l.authorId && collation.ilike a.name pattern

/-- The subquery of the subject filter. -/
def hasSubjectLike (collation : Collation) (pattern : String) (c : Catalog) (bookId : Uuid) : Bool :=
  c.bookSubjects.rows.any fun s => s.bookId = bookId && collation.ilike s.subject pattern

/-- `if text:` adds a condition on the pattern `%text%`. -/
def ifGiven (text : Option String) (condition : String → Bool) : Bool :=
  match text with
  | none => true
  | some text => if text = "" then true else condition ("%" ++ text ++ "%")

/-- The conditions of `list_books` beside the tenant's. A missing year meets no bound. -/
def BookFilters.select (collation : Collation) (filters : BookFilters) (c : Catalog) (b : Book) :
    Bool :=
  ifGiven filters.author (fun pattern => hasAuthorLike collation pattern c b.id) &&
    ifGiven filters.subject (fun pattern => hasSubjectLike collation pattern c b.id) &&
    filters.yearFrom.all (fun year => b.firstPublishYear.any (year ≤ ·)) &&
    filters.yearTo.all (fun year => b.firstPublishYear.any (· ≤ year)) &&
    ifGiven filters.q (fun pattern =>
      collation.ilike b.title pattern || hasAuthorLike collation pattern c b.id)

/-- The pattern of a filter that is given. -/
def patternParameters (text : Option String) : List Parameter :=
  (text.filter (· ≠ "")).toList.map fun text => .text ("%" ++ text ++ "%")

/-- What the conditions of `list_books` bind. -/
def filterParameters (filters : BookFilters) : List Parameter :=
  patternParameters filters.author ++ patternParameters filters.subject ++
    filters.yearFrom.toList.map .integer ++ filters.yearTo.toList.map .integer ++
    -- the keyword is looked for in the title and in the names of the authors
    patternParameters filters.q ++ patternParameters filters.q

/-- The rows of `base`. -/
def baseRows (collation : Collation) (tenantId : Uuid) (filters : BookFilters) (c : Catalog) :
    List Book :=
  c.books.rows.filter fun b => b.tenantId = tenantId && filters.select collation c b

def bookSummary (c : Catalog) (b : Book) : BookSummary where
  id := b.id
  olWorkKey := b.olWorkKey
  isbn := b.isbn
  title := b.title
  authors := (authorsOf c b.id).map (·.name)
  firstPublishYear := b.firstPublishYear
  coverUrl := b.coverUrl
  subjects := (subjectsOf c b.id).take 10

def bookDetail (c : Catalog) (b : Book) : BookDetail where
  id := b.id
  olWorkKey := b.olWorkKey
  isbn := b.isbn
  title := b.title
  authors := (authorsOf c b.id).map fun a => ⟨a.id, a.olAuthorKey, a.name⟩
  firstPublishYear := b.firstPublishYear
  coverUrl := b.coverUrl
  description := b.description
  subjects := subjectsOf c b.id

/-- The page of `base` in the order of the titles, with what is loaded for its books. -/
def pageOfBooks (collation : Collation) (tenantId : Uuid) (filters : BookFilters)
    (params : PageParams) (c : Catalog) : List BookSummary :=
  let ordered := (baseRows collation tenantId filters c).mergeSort fun a b =>
    collation.le a.title b.title
  (params.slice ordered).map (bookSummary c)

/-! ### The service -/

/-- `BookService.list_books`. -/
def listBooks (collation : Collation) (tenantId : Uuid) (filters : BookFilters)
    (params : PageParams) : IngestM (PaginatedResponse BookSummary) := do
  let total ← selectBinding (filterParameters filters) fun db =>
    (baseRows collation tenantId filters db.catalog).length
  let items ← selectBinding (filterParameters filters ++ params.parameters) fun db =>
    pageOfBooks collation tenantId filters params db.catalog
  return params.respond total items

/-- `BookService.get_book`. -/
def getBook (tenantId bookId : Uuid) : IngestM (Option BookDetail) := do
  let rows ← SessionM.select (Write.send Refusal.never) fun db =>
    (db.catalog.books.rows.filter fun b => b.tenantId = tenantId && b.id = bookId).map
      (bookDetail db.catalog)
  scalarOneOrNone rows

end TenantLibrary.Books
