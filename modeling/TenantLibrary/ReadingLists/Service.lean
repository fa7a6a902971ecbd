import TenantLibrary.Ingestion.Service
import TenantLibrary.ReadingLists.Pii
import TenantLibrary.Store.Parameters

/-!
Reading-list submission (`app/services/reading_list_service.py`).

A submission is hashed and masked, its list is looked up by the hash of the email, the
items stored before are deleted, and each reference is resolved against the catalog
and Open Library and stored as an item.
-/

namespace TenantLibrary.ReadingLists

open TenantLibrary.Lib TenantLibrary.OpenLibrary TenantLibrary.Store TenantLibrary.Ingestion

/-! ### Schemas -/

/-- `BookReference`; its validator asks for one of the identifiers. -/
structure BookReference where
  olWorkKey : Option String
  isbn : Option String
  identified : truthy olWorkKey ∨ truthy isbn
deriving DecidableEq

/-- `ReadingListSubmission`; at least one book is required. -/
structure Submission where
  patronName : String
  email : String
  books : List BookReference
  nonempty : books ≠ []
deriving DecidableEq

structure ResolvedBook where
  olWorkKey : String
  title : String
  foundInCatalog : Bool
deriving DecidableEq, Repr

structure UnresolvedBook where
  olWorkKey : Option String
  isbn : Option String
  reason : String
deriving DecidableEq, Repr

structure ReadingListResponse where
  readingListId : Uuid
  isUpdate : Bool
  patronNameMasked : String
  emailMasked : String
  resolvedBooks : List ResolvedBook
  unresolvedBooks : List UnresolvedBook
deriving DecidableEq, Repr

/-! ### Inputs -/

/-- What Open Library answers while one reference is resolved: the outcomes of
`resolve_isbn` and `get_work`. -/
structure ReferenceAnswers where
  isbn : Except Failure (Option String)
  work : Except Failure WorkDetail

/-- The results of `uuid4` during one submission. -/
structure SubmitDraws where
  listId : Uuid
  itemId : Nat → Uuid

/-! ### Resolution -/

/-- `_find_by_isbn`. -/
def findByIsbn (tenantId : Uuid) (isbn : String) : IngestM (Option Book) := do
  let result ← selectBinding [.text isbn] fun db =>
    db.catalog.books.rows.filter fun b => b.tenantId = tenantId && b.isbn = some isbn
  scalarOneOrNone result

/-- `_find_by_work_key`. -/
def findByWorkKey (tenantId : Uuid) (olWorkKey : String) : IngestM (Option Book) := do
  let result ← selectBinding [.text olWorkKey] fun db =>
    db.catalog.books.rows.filter fun b => b.tenantId = tenantId && b.olWorkKey = olWorkKey
  scalarOneOrNone result

abbrev Resolution := Option ResolvedBook × Option UnresolvedBook

/-- A book of the catalog as a resolved reference. -/
def inCatalog (olWorkKey : String) (book : Book) : Resolution :=
  (some ⟨olWorkKey, book.title, true⟩, none)

/-- The end of `_resolve_book`: the catalog has no such ISBN; look for the work key in
the catalog, then on Open Library. -/
def resolveByKey (tenantId : Uuid) (workKey isbn : Option String) (answers : ReferenceAnswers) :
    IngestM Resolution := do
  let catalogBook ←
    if truthy workKey then findByWorkKey tenantId (workKey.getD "") else pure none
  match catalogBook with
  | some book => return inCatalog (workKey.getD "") book
  | none =>
      match answers.work with
      | .error (.openLibraryError _) =>
          return (none, some ⟨workKey, isbn, "Work not found on Open Library"⟩)
      | .error failure => throw (.raised failure)
      | .ok workDetail =>
          -- `ResolvedBook` requires both texts
          let olWorkKey ← liftAnswer ((Failure.other "validation error").onNone workKey)
          let title ← liftAnswer ((Failure.other "validation error").onNone workDetail.title)
          return (some ⟨olWorkKey, title, false⟩, none)

/-- `_resolve_book`. -/
def resolveBook (tenantId : Uuid) (ref : BookReference) (answers : ReferenceAnswers) :
    IngestM Resolution := do
  match ref.isbn.filter (· ≠ "") with
  | none => resolveByKey tenantId ref.olWorkKey ref.isbn answers
  | some isbn =>
      match ← findByIsbn tenantId isbn with
      | some book => return inCatalog book.olWorkKey book
      | none =>
          if truthy ref.olWorkKey then
            resolveByKey tenantId ref.olWorkKey ref.isbn answers
          else
            let workKey ←
              match answers.isbn with
              | .error (.openLibraryError _) => pure ref.olWorkKey
              | .error failure => throw (.raised failure)
              | .ok workKey => pure workKey
            if truthy workKey then resolveByKey tenantId workKey ref.isbn answers
            else return (none, some ⟨none, ref.isbn, "ISBN not found on Open Library"⟩)

/-! ### Submission -/

/-- The item stored for a reference. -/
def itemFor (id readingListId : Uuid) (ref : BookReference) (resolved : Option ResolvedBook)
    (bookId : Option Uuid) : ReadingListItem :=
  match resolved with
  | some book => ⟨id, readingListId, some book.olWorkKey, ref.isbn, bookId, true⟩
  | none => ⟨id, readingListId, ref.olWorkKey, ref.isbn, none, false⟩

/-- One round of the loop over `submission.books`. -/
def storeReference (tenantId readingListId itemId : Uuid) (ref : BookReference)
    (answers : ReferenceAnswers) : IngestM Resolution := do
  let (resolved, unresolved) ← resolveBook tenantId ref answers
  let bookId ←
    match resolved with
    | some ⟨olWorkKey, _, true⟩ => do
        let catalogBook ← findByWorkKey tenantId olWorkKey
        pure (catalogBook.map (·.id))
    | _ => pure none
  SessionM.add (.insertReadingListItem (itemFor itemId readingListId ref resolved bookId))
  return (resolved, unresolved)

/-- The loop over `submission.books` from position `i` on. -/
def storeReferences (tenantId readingListId : Uuid) (draws : SubmitDraws)
    (answers : Nat → ReferenceAnswers) :
    List BookReference → Nat → IngestM (List ResolvedBook × List UnresolvedBook)
  | [], _ => return ([], [])
  | ref :: rest, i => do
      let (resolved, unresolved) ←
        storeReference tenantId readingListId (draws.itemId i) ref (answers i)
      let (resolvedBooks, unresolvedBooks) ←
        storeReferences tenantId readingListId draws answers rest (i + 1)
      match resolved with
      | some book => return (book :: resolvedBooks, unresolvedBooks)
      | none => return (resolvedBooks, unresolved.toList ++ unresolvedBooks)

/-- The list of a patron, as it is when it is first inserted. -/
def newList (id tenantId : Uuid) (patronNameHash emailHash patronNameMasked emailMasked : String) :
    ReadingList :=
  { id, tenantId, patronNameHash, emailHash, patronNameMasked, emailMasked }

/-- `ReadingListService.submit`. An attribute set to the value it has emits no `UPDATE`. -/
def submit (hashing : Hashing) (tenantId : Uuid) (submission : Submission) (draws : SubmitDraws)
    (answers : Nat → ReferenceAnswers) : IngestM ReadingListResponse := do
  let database := Write.send Refusal.never
  let emailHash := hashPii hashing submission.email
  let nameHash := hashPii hashing submission.patronName
  let emailMasked ← liftAnswer ((maskEmail submission.email).mapError fun _ => .other "mask_email")
  let nameMasked := maskName submission.patronName
  let result ← SessionM.select database fun db =>
    db.readingLists.rows.filter fun l => l.tenantId = tenantId && l.emailHash = emailHash
  let existing ← scalarOneOrNone result
  let readingListId ←
    match existing with
    | none =>
        let list := newList draws.listId tenantId nameHash emailHash nameMasked emailMasked
        SessionM.add (.insertReadingList list)
        SessionM.flush database
        pure list.id
    | some list =>
        let renamed := { list with patronNameHash := nameHash, patronNameMasked := nameMasked }
        if renamed ≠ list then SessionM.add (.updateReadingList renamed)
        SessionM.add (.deleteReadingListItems list.id)
        SessionM.flush database
        pure list.id
  let (resolvedBooks, unresolvedBooks) ←
    storeReferences tenantId readingListId draws answers submission.books 0
  SessionM.commit database
  return {
    readingListId
    isUpdate := existing.isSome
    patronNameMasked := nameMasked
    emailMasked
    resolvedBooks
    unresolvedBooks }

/-- The end of `submit`: the loop over the references, the commit and the answer. -/
def storeAndAnswer (tenantId readingListId : Uuid) (isUpdate : Bool)
    (patronNameMasked emailMasked : String) (books : List BookReference) (draws : SubmitDraws)
    (answers : Nat → ReferenceAnswers) : IngestM ReadingListResponse := do
  let (resolvedBooks, unresolvedBooks) ←
    storeReferences tenantId readingListId draws answers books 0
  SessionM.commit (Write.send Refusal.never)
  return ⟨readingListId, isUpdate, patronNameMasked, emailMasked, resolvedBooks, unresolvedBooks⟩

end TenantLibrary.ReadingLists
