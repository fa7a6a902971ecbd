import TenantLibrary.Ingestion.Service
import TenantLibrary.Lib.Columns

/-!
Attribution of names to author keys.

Open Library gives the authors of a work as entries that pair a key with a name: the
inline authors of a subject response, the positions of `author_key` and
`author_name` in a search document, or the author records behind the references of a
work. The pipeline collects keys and names in two lists and joins them again by
position. The join is faithful where the entries are aligned; a missing name or a
failed `get_author` followed by another name shifts every later name to the key of
the author before it.
-/

namespace TenantLibrary.Ingestion

open TenantLibrary.Lib TenantLibrary.OpenLibrary TenantLibrary.Store

/-! ### The entries Open Library gives -/

/-- One hit of a search. -/
inductive SearchHit where
  | document (doc : SearchDoc)
  | inSubject (work : SubjectWork)
deriving DecidableEq, Repr

/-- The search result the client makes of a hit. -/
def SearchHit.read : SearchHit → Except Failure SearchResult
  | .document doc => readSearchDoc doc
  | .inSubject work => readSubjectWork work

/-- An author's key and name; the name of an author record can be `null`. -/
abbrev AuthorEntryOf := Entry String (Option String)

/-- An inline author of a subject response. -/
def InlineAuthor.entry (a : InlineAuthor) : AuthorEntryOf :=
  (if truthy a.key.get? then (a.key.get "").map stripKey else none,
    (if truthy a.name.get? then a.name.get "" else none).map some)

/-- The author entries of a hit. In a search document `author_name[i]` belongs to
`author_key[i]`. -/
def SearchHit.entries : SearchHit → List AuthorEntryOf
  | .document doc =>
      pairedEntries (((doc.authorKey.get []).getD []).map stripKey)
        (((doc.authorName.get []).getD []).map some)
  | .inSubject work => ((work.authors.get []).getD []).map InlineAuthor.entry

/-- The author references of a work with the names of the records that could be
fetched. -/
def referenceEntries (author : Nat → Except Failure AuthorDetail) :
    List String → List AuthorEntryOf
  | [] => []
  | ref :: rest =>
      (some ref, (author 0).toOption.map AuthorDetail.name) ::
        referenceEntries (fun i => author (i + 1)) rest

end TenantLibrary.Ingestion
