import Mathlib.Data.List.Basic
import Mathlib.Data.String.Basic

/-!
The Open Library client's normalisation of responses (`app/clients/openlibrary.py`).

The client reads JSON objects with `dict.get` and copies what it finds into data
classes without a check, so a field that is present but `null` arrives as `None`
whatever the data class declares. `Field` keeps the three cases of a JSON field
apart, and the data classes here have the types their fields can really take.

Requests, retries and rate limiting are not part of this module: a function takes
the decoded body of the response it got.
-/

namespace TenantLibrary.OpenLibrary

/-! ### JSON fields -/

/-- A field of a JSON object. -/
inductive Field (α : Type) where
  | absent
  | null
  | value (a : α)
deriving DecidableEq, Repr

/-- `dict.get(key, default)`; `none` is `None`. -/
def Field.get {α : Type} (field : Field α) (default : α) : Option α :=
  match field with
  | .absent => some default
  | .null => none
  | .value a => some a

/-- `dict.get(key)`. -/
def Field.get? {α : Type} : Field α → Option α
  | .absent => none
  | .null => none
  | .value a => some a

section

variable {α : Type} (a default : α)

@[simp] theorem Field.get_absent : Field.absent.get default = some default := rfl
@[simp] theorem Field.get_null : Field.null.get default = none := rfl
@[simp] theorem Field.get_value : (Field.value a).get default = some a := rfl

@[simp] theorem Field.get?_absent : (Field.absent : Field α).get? = none := rfl
@[simp] theorem Field.get?_null : (Field.null : Field α).get? = none := rfl
@[simp] theorem Field.get?_value : (Field.value a).get? = some a := rfl

end

theorem ne_null_iff {α : Type} {field : Field α} (default : α) :
    field ≠ .null ↔ ∃ a, field.get default = some a := by
  cases field <;> simp

theorem isSome_iff_ne_null {α : Type} {field : Field α} (default : α) :
    (field.get default).isSome = true ↔ field ≠ .null := by
  rw [ne_null_iff default, Option.isSome_iff_exists]

/-- What goes wrong while a response is read. -/
inductive Failure where
  /-- `OpenLibraryError`, raised by a request that failed after its retries -/
  | openLibraryError (message : String)
  | attributeError
  | typeError
  /-- any other exception of a request or of decoding its body -/
  | other (message : String)
deriving DecidableEq, Repr

/-- A method call or an attribute on `None`. -/
def Failure.onNone {α : Type} (failure : Failure) : Option α → Except Failure α
  | none => .error failure
  | some a => .ok a

@[simp] theorem Failure.onNone_eq_ok {α : Type} {failure : Failure} {o : Option α} {a : α} :
    failure.onNone o = .ok a ↔ o = some a := by
  cases o <;> simp [Failure.onNone]

/-- `if text:` on a string that may be `None`. -/
def truthy (text : Option String) : Bool := text.any (· ≠ "")

/-! ### Data classes -/

structure SearchResult where
  workKey : String
  title : Option String
  authorNames : Option (List String)
  authorKeys : List String
  firstPublishYear : Option Int
  coverId : Option Int
  subjects : List String
  isbn : Option String
deriving DecidableEq, Repr

structure WorkDetail where
  workKey : String
  title : Option String
  authorRefs : List String
  firstPublishDate : Option String
  coverIds : Option (List Int)
  subjects : List String
  description : Option String
deriving DecidableEq, Repr

structure AuthorDetail where
  authorKey : String
  name : Option String
  birthDate : Option String
  deathDate : Option String
  bio : Option String
  photoIds : Option (List Int)
deriving DecidableEq, Repr

/-! ### Response bodies -/

/-- A value that should be a plain string or a `/type/text` object. -/
inductive Text where
  | plain (text : String)
  | typed (value : Field String)
  | other
deriving DecidableEq, Repr

/-- A document of `search.json`. -/
structure SearchDoc where
  key : Field String
  title : Field String
  authorName : Field (List String)
  authorKey : Field (List String)
  firstPublishYear : Field Int
  subject : Field (List String)
  coverI : Field Int
  isbn : Field (List String)
deriving DecidableEq, Repr

/-- An author given inline in a work of a subject response. -/
structure InlineAuthor where
  key : Field String
  name : Field String
deriving DecidableEq, Repr

/-- A work of `subjects/….json`. -/
structure SubjectWork where
  key : Field String
  title : Field String
  authors : Field (List InlineAuthor)
  firstPublishYear : Field Int
  coverId : Field Int
  subject : Field (List String)
deriving DecidableEq, Repr

/-- The `author` object of an entry of a work's `authors`. -/
structure AuthorObject where
  key : Field String
deriving DecidableEq, Repr

structure AuthorEntry where
  author : Field AuthorObject
deriving DecidableEq, Repr

/-- The body of `works/….json`. -/
structure WorkBody where
  title : Field String
  authors : Field (List AuthorEntry)
  firstPublishDate : Field String
  covers : Field (List Int)
  subjects : Field (List String)
  description : Field Text
deriving DecidableEq, Repr

/-- The body of `authors/….json`. -/
structure AuthorBody where
  name : Field String
  birthDate : Field String
  deathDate : Field String
  bio : Field Text
  photos : Field (List Int)
deriving DecidableEq, Repr

/-- An entry of `works` in the body of `isbn/….json`. -/
structure EditionWork where
  key : Field String
deriving DecidableEq, Repr

/-- The body of `isbn/….json`. -/
structure IsbnBody where
  works : Field (List EditionWork)
deriving DecidableEq, Repr

/-! ### Normalisation -/

/-- `_extract_text`. -/
def extractText : Option Text → Option String
  | none => none
  | some (.plain text) => some text
  | some (.typed value) => value.get?
  | some .other => none

/-- `_strip_key`: what follows the last `/`. -/
def stripKey (path : String) : String :=
  String.ofList (path.toList.reverse.takeWhile (· ≠ '/')).reverse

/-- One round of the loop of `search_by_author`. -/
def readSearchDoc (doc : SearchDoc) : Except Failure SearchResult := do
  let key := doc.key.get ""
  let isbns := doc.isbn.get []
  let workKey ← Failure.attributeError.onNone key
  let authorKey ← Failure.typeError.onNone (doc.authorKey.get [])
  let subject ← Failure.typeError.onNone (doc.subject.get [])
  return {
    workKey := stripKey workKey
    title := doc.title.get "Unknown"
    authorNames := doc.authorName.get []
    authorKeys := authorKey.map stripKey
    firstPublishYear := doc.firstPublishYear.get?
    coverId := doc.coverI.get?
    subjects := subject.take 50
    isbn := isbns.bind List.head? }

/-- `search_by_author` on the body's `docs`. -/
def searchByAuthor (docs : Field (List SearchDoc)) : Except Failure (List SearchResult) := do
  let docs ← Failure.typeError.onNone (docs.get [])
  docs.mapM readSearchDoc

/-- `[a.get("name", "") for a in authors if a.get("name")]`. -/
def inlineNames (authors : List InlineAuthor) : List String :=
  authors.filterMap fun a => if truthy a.name.get? then a.name.get "" else none

/-- `[_strip_key(a.get("key", "")) for a in authors if a.get("key")]`. -/
def inlineKeys (authors : List InlineAuthor) : List String :=
  authors.filterMap fun a => if truthy a.key.get? then (a.key.get "").map stripKey else none

/-- One round of the loop of `search_by_subject`. -/
def readSubjectWork (work : SubjectWork) : Except Failure SearchResult := do
  let key := work.key.get ""
  let authors ← Failure.typeError.onNone (work.authors.get [])
  let workKey ← Failure.attributeError.onNone key
  let subject ← Failure.typeError.onNone (work.subject.get [])
  return {
    workKey := stripKey workKey
    title := work.title.get "Unknown"
    authorNames := some (inlineNames authors)
    authorKeys := inlineKeys authors
    firstPublishYear := work.firstPublishYear.get?
    coverId := work.coverId.get?
    subjects := subject.take 50
    isbn := none }

/-- `search_by_subject` on the body's `works`. -/
def searchBySubject (works : Field (List SubjectWork)) : Except Failure (List SearchResult) := do
  let works ← Failure.typeError.onNone (works.get [])
  works.mapM readSubjectWork

/-- One round of the loop over `authors` in `get_work`. -/
def readAuthorEntry (entry : AuthorEntry) : Except Failure (Option String) := do
  let authorObj ← Failure.attributeError.onNone (entry.author.get ⟨.absent⟩)
  let key := authorObj.key.get ""
  return if truthy key then key.map stripKey else none

/-- `get_work` on the body. -/
def getWork (workKey : String) (data : WorkBody) : Except Failure WorkDetail := do
  let authors ← Failure.typeError.onNone (data.authors.get [])
  let authorRefs ← authors.mapM readAuthorEntry
  let subjects ← Failure.typeError.onNone (data.subjects.get [])
  return {
    workKey
    title := data.title.get "Unknown"
    authorRefs := authorRefs.filterMap id
    firstPublishDate := data.firstPublishDate.get?
    coverIds := data.covers.get []
    subjects := subjects.take 50
    description := extractText data.description.get? }

/-- `get_author` on the body. -/
def getAuthor (authorKey : String) (data : AuthorBody) : AuthorDetail where
  authorKey
  name := data.name.get "Unknown"
  birthDate := data.birthDate.get?
  deathDate := data.deathDate.get?
  bio := extractText data.bio.get?
  photoIds := data.photos.get []

/-- `resolve_isbn` on what its request answers. -/
def resolveIsbn (response : Except Failure IsbnBody) : Except Failure (Option String) :=
  match response with
  | .error (.openLibraryError _) => .ok none
  | .error failure => .error failure
  | .ok data =>
      match data.works.get [] with
      | none | some [] => .ok none
      | some (work :: _) => do
          let key ← Failure.attributeError.onNone (work.key.get "")
          return some (stripKey key)

/-- `build_cover_url` with its default size. -/
def buildCoverUrl (coverId : Int) : String :=
  "https://covers.openlibrary.org/b/id/" ++ toString coverId ++ "-M.jpg"

end TenantLibrary.OpenLibrary
