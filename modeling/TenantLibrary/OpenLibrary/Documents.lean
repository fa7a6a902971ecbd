import TenantLibrary.Lib.Session
import TenantLibrary.OpenLibrary.Client

/-!
Searches read document by document.

Each round of the loops of `search_by_author` and `search_by_subject` reads its own
document only, and `SearchDoc.result` and `SubjectWork.result` are what it makes of one.
An absent field has a default; the three fields of a document that are used without a look
at `None` must not be `null`, or the exception leaves the loop and the search with it.
-/

namespace TenantLibrary.OpenLibrary

open TenantLibrary.Lib

/-- The documents of a response: none when the field is absent. -/
def Field.items {α : Type} (field : Field (List α)) : List α := (field.get []).getD []

/-! ### One document -/

/-- The fields a round uses without a look at `None`. -/
structure SearchDoc.Readable (doc : SearchDoc) : Prop where
  key : doc.key ≠ .null
  authorKey : doc.authorKey ≠ .null
  subject : doc.subject ≠ .null

/-- What `search_by_author` makes of a document. -/
def SearchDoc.result (doc : SearchDoc) : SearchResult where
  workKey := stripKey ((doc.key.get "").getD "")
  title := doc.title.get "Unknown"
  authorNames := doc.authorName.get []
  authorKeys := doc.authorKey.items.map stripKey
  firstPublishYear := doc.firstPublishYear.get?
  coverId := doc.coverI.get?
  subjects := doc.subject.items.take 50
  isbn := (doc.isbn.get []).bind List.head?

structure SubjectWork.Readable (work : SubjectWork) : Prop where
  key : work.key ≠ .null
  authors : work.authors ≠ .null
  subject : work.subject ≠ .null

/-- What `search_by_subject` makes of a work. -/
def SubjectWork.result (work : SubjectWork) : SearchResult where
  workKey := stripKey ((work.key.get "").getD "")
  title := work.title.get "Unknown"
  authorNames := some (inlineNames work.authors.items)
  authorKeys := inlineKeys work.authors.items
  firstPublishYear := work.firstPublishYear.get?
  coverId := work.coverId.get?
  subjects := work.subject.items.take 50
  isbn := none

theorem readSearchDoc_eq_ok (doc : SearchDoc) (result : SearchResult) :
    readSearchDoc doc = .ok result ↔ doc.Readable ∧ result = doc.result := by
  simp only [readSearchDoc, bind_eq_ok, Failure.onNone_eq_ok]
  constructor
  · rintro ⟨key, keyed, authorKeys, authored, subjects, subjected, made⟩
    obtain rfl := Except.ok.inj made
    refine ⟨⟨(ne_null_iff "").mpr ⟨_, keyed⟩, (ne_null_iff []).mpr ⟨_, authored⟩,
      (ne_null_iff []).mpr ⟨_, subjected⟩⟩, ?_⟩
    simp [SearchDoc.result, Field.items, keyed, authored, subjected]
  · rintro ⟨readable, rfl⟩
    obtain ⟨key, keyed⟩ := (ne_null_iff "").mp readable.key
    obtain ⟨authorKeys, authored⟩ := (ne_null_iff []).mp readable.authorKey
    obtain ⟨subjects, subjected⟩ := (ne_null_iff []).mp readable.subject
    refine ⟨key, keyed, authorKeys, authored, subjects, subjected, congrArg Except.ok ?_⟩
    simp [SearchDoc.result, Field.items, keyed, authored, subjected]

theorem readSubjectWork_eq_ok (work : SubjectWork) (result : SearchResult) :
    readSubjectWork work = .ok result ↔ work.Readable ∧ result = work.result := by
  simp only [readSubjectWork, bind_eq_ok, Failure.onNone_eq_ok]
  constructor
  · rintro ⟨authors, authored, key, keyed, subjects, subjected, made⟩
    obtain rfl := Except.ok.inj made
    refine ⟨⟨(ne_null_iff "").mpr ⟨_, keyed⟩, (ne_null_iff []).mpr ⟨_, authored⟩,
      (ne_null_iff []).mpr ⟨_, subjected⟩⟩, ?_⟩
    simp [SubjectWork.result, Field.items, keyed, authored, subjected]
  · rintro ⟨readable, rfl⟩
    obtain ⟨key, keyed⟩ := (ne_null_iff "").mp readable.key
    obtain ⟨authors, authored⟩ := (ne_null_iff []).mp readable.authors
    obtain ⟨subjects, subjected⟩ := (ne_null_iff []).mp readable.subject
    refine ⟨authors, authored, key, keyed, subjects, subjected, congrArg Except.ok ?_⟩
    simp [SubjectWork.result, Field.items, keyed, authored, subjected]

/-! ### A whole response -/

/-- A search over the documents of a response, by a loop whose rounds are as said. -/
theorem search_eq_ok {Doc : Type} {read : Doc → Except Failure SearchResult}
    {Good : Doc → Prop} {result : Doc → SearchResult}
    (each : ∀ doc made, read doc = .ok made ↔ Good doc ∧ made = result doc)
    {docs : Field (List Doc)} {results : List SearchResult} :
    (Failure.typeError.onNone (docs.get []) >>= fun docs => docs.mapM read) = .ok results ↔
      (docs ≠ .null ∧ ∀ doc ∈ docs.items, Good doc) ∧ results = docs.items.map result := by
  simp only [bind_eq_ok, Failure.onNone_eq_ok, mapM_eq_ok_map each]
  cases docs <;> simp [Field.items]

theorem searchByAuthor_eq_ok {docs : Field (List SearchDoc)} {results : List SearchResult} :
    searchByAuthor docs = .ok results ↔
      (docs ≠ .null ∧ ∀ doc ∈ docs.items, doc.Readable) ∧
      results = docs.items.map SearchDoc.result :=
  search_eq_ok readSearchDoc_eq_ok

theorem searchBySubject_eq_ok {works : Field (List SubjectWork)} {results : List SearchResult} :
    searchBySubject works = .ok results ↔
      (works ≠ .null ∧ ∀ work ∈ works.items, work.Readable) ∧
      results = works.items.map SubjectWork.result :=
  search_eq_ok readSubjectWork_eq_ok

/-- The search returns, with one result for each document, in order, and each is made from
its document alone. -/
def ReadsEach {Doc : Type} (search : Field (List Doc) → Except Failure (List SearchResult))
    (result : Doc → SearchResult) (docs : Field (List Doc)) : Prop :=
  ∃ results, search docs = .ok results ∧ results = docs.items.map result

/-- A search reads every document when no field it uses unchecked is `null` in any. -/
theorem reads_each_iff (docs : Field (List SearchDoc)) (works : Field (List SubjectWork)) :
    (ReadsEach searchByAuthor SearchDoc.result docs ↔
      docs ≠ .null ∧ ∀ doc ∈ docs.items, doc.Readable) ∧
    (ReadsEach searchBySubject SubjectWork.result works ↔
      works ≠ .null ∧ ∀ work ∈ works.items, work.Readable) := by
  constructor
  · constructor
    · rintro ⟨results, searched, -⟩
      exact (searchByAuthor_eq_ok.mp searched).1
    · intro readable
      exact ⟨_, searchByAuthor_eq_ok.mpr ⟨readable, rfl⟩, rfl⟩
  · constructor
    · rintro ⟨results, searched, -⟩
      exact (searchBySubject_eq_ok.mp searched).1
    · intro readable
      exact ⟨_, searchBySubject_eq_ok.mpr ⟨readable, rfl⟩, rfl⟩

/-- A complete document, and one whose subjects are `null`. -/
def soundDoc : SearchDoc where
  key := .value "/works/OL1W"
  title := .value "Emma"
  authorName := .value ["Jane Austen"]
  authorKey := .value ["OL1A"]
  firstPublishYear := .value 1815
  subject := .value ["Matchmaking"]
  coverI := .null
  isbn := .absent

def nullSubjectDoc : SearchDoc := { soundDoc with key := .value "/works/OL2W", subject := .null }

/-- The second document takes the first one's result along. -/
theorem null_subject_spoils_search :
    searchByAuthor (.value [soundDoc]) = .ok [soundDoc.result] ∧
    searchByAuthor (.value [soundDoc, nullSubjectDoc]) = .error .typeError := by
  have sound : soundDoc.Readable := ⟨nofun, nofun, nofun⟩
  constructor
  · exact searchByAuthor_eq_ok.mpr ⟨⟨nofun, by simpa [Field.items] using sound⟩, rfl⟩
  · rfl

end TenantLibrary.OpenLibrary
