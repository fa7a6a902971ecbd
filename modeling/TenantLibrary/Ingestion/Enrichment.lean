import TenantLibrary.Ingestion.Attribution
import TenantLibrary.OpenLibrary.Documents

/-!
Which source each field of a record comes from.

The client gives every absent field a default, and `enrich` merges the search result with
the work detail by what is truthy. Here the two are read together, from the responses:
`enrich_hit_iff` says when they produce a record, and `SearchHit.record` is the record.
-/

namespace TenantLibrary.OpenLibrary

open TenantLibrary.Lib

/-! ### The fields of a work -/

/-- The key of an entry's author, when it has one. -/
def AuthorEntry.ref (entry : AuthorEntry) : Option String :=
  (entry.author.get ⟨.absent⟩).bind fun author =>
    if truthy (author.key.get "") then (author.key.get "").map stripKey else none

/-- None of the fields `get_work` uses without a check is `null`. -/
structure WorkBody.Readable (body : WorkBody) : Prop where
  authors : body.authors ≠ .null
  entries : ∀ entry ∈ (body.authors.get []).getD [], entry.author ≠ .null
  subjects : body.subjects ≠ .null

def WorkBody.refs (body : WorkBody) : List String :=
  ((body.authors.get []).getD []).filterMap AuthorEntry.ref

/-- The work detail of a readable body. -/
def WorkBody.detail (body : WorkBody) (workKey : String) : WorkDetail where
  workKey
  title := body.title.get "Unknown"
  authorRefs := body.refs
  firstPublishDate := body.firstPublishDate.get?
  coverIds := body.covers.get []
  subjects := ((body.subjects.get []).getD []).take 50
  description := extractText body.description.get?

theorem readAuthorEntry_eq_ok {entry : AuthorEntry} {ref : Option String} :
    readAuthorEntry entry = .ok ref ↔ entry.author ≠ .null ∧ ref = entry.ref := by
  rw [ne_null_iff ⟨.absent⟩]
  simp only [readAuthorEntry, bind_eq_ok, Failure.onNone_eq_ok]
  constructor
  · rintro ⟨author, found, made⟩
    obtain rfl := Except.ok.inj made
    exact ⟨⟨author, found⟩, by simp [AuthorEntry.ref, found]⟩
  · rintro ⟨⟨author, found⟩, rfl⟩
    exact ⟨author, found, by simp [AuthorEntry.ref, found]; rfl⟩

theorem getWork_eq_ok {body : WorkBody} {workKey : String} {detail : WorkDetail} :
    getWork workKey body = .ok detail ↔ body.Readable ∧ detail = body.detail workKey := by
  simp only [getWork, bind_eq_ok, Failure.onNone_eq_ok,
    mapM_eq_ok_map fun entry ref => readAuthorEntry_eq_ok]
  constructor
  · rintro ⟨authors, listed, _, ⟨entries, rfl⟩, subjects, subjected, made⟩
    obtain rfl := Except.ok.inj made
    refine ⟨⟨(ne_null_iff []).mpr ⟨_, listed⟩, ?_, (ne_null_iff []).mpr ⟨_, subjected⟩⟩, ?_⟩
    · simpa [listed] using entries
    · simp [WorkBody.detail, WorkBody.refs, listed, subjected, List.filterMap_map]
  · rintro ⟨readable, rfl⟩
    obtain ⟨authors, listed⟩ := (ne_null_iff []).mp readable.authors
    obtain ⟨subjects, subjected⟩ := (ne_null_iff []).mp readable.subjects
    have entries := readable.entries
    rw [listed] at entries
    refine ⟨authors, listed, _, ⟨entries, rfl⟩, subjects, subjected, congrArg Except.ok ?_⟩
    simp [WorkBody.detail, WorkBody.refs, listed, subjected, List.filterMap_map]

/-- The work and the callers' `except OpenLibraryError` go on after this outcome. -/
def Caught {α : Type} : Except Failure α → Prop
  | .ok _ => True
  | .error (.openLibraryError _) => True
  | .error _ => False

/-- The outcome is no `OpenLibraryError`. -/
def NoLibraryError {α : Type} (outcome : Except Failure α) : Prop :=
  ∀ message, outcome ≠ .error (.openLibraryError message)

theorem NoLibraryError.bind {α β : Type} {outcome : Except Failure α} {next : α → Except Failure β}
    (first : NoLibraryError outcome) (second : ∀ a, NoLibraryError (next a)) :
    NoLibraryError (outcome >>= next) := by
  intro message failed
  cases outcome with
  | ok a => exact second a message failed
  | error failure => exact first message (congrArg Except.error (Except.error.inj failed))

theorem noLibraryError_ok {α : Type} (a : α) : NoLibraryError (.ok a) := nofun

theorem noLibraryError_typeError {α : Type} (o : Option α) :
    NoLibraryError (Failure.typeError.onNone o) := by
  cases o <;> nofun

theorem noLibraryError_attributeError {α : Type} (o : Option α) :
    NoLibraryError (Failure.attributeError.onNone o) := by
  cases o <;> nofun

theorem noLibraryError_mapM {α β : Type} {body : α → Except Failure β}
    (each : ∀ a, NoLibraryError (body a)) (items : List α) :
    NoLibraryError (items.mapM body) := by
  induction items with
  | nil => exact noLibraryError_ok []
  | cons a rest ih =>
      rw [List.mapM_cons]
      exact (each a).bind fun b => ih.bind fun bs => noLibraryError_ok (b :: bs)

/-- What `get_work` raises about a body is not an `OpenLibraryError`. -/
theorem noLibraryError_getWork (workKey : String) (body : WorkBody) :
    NoLibraryError (getWork workKey body) := by
  apply (noLibraryError_typeError _).bind
  intro authors
  apply NoLibraryError.bind
  · apply noLibraryError_mapM
    intro author
    exact (noLibraryError_attributeError _).bind fun _ => noLibraryError_ok _
  · intro keys
    exact (noLibraryError_typeError _).bind fun _ => noLibraryError_ok _

theorem readable_of_caught {body : WorkBody} {workKey : String}
    (caught : Caught (getWork workKey body)) : body.Readable := by
  cases read : getWork workKey body with
  | ok detail => exact (getWork_eq_ok.mp read).1
  | error failure =>
      rw [read] at caught
      cases failure with
      | openLibraryError message => exact absurd read (noLibraryError_getWork workKey body message)
      | attributeError => exact caught.elim
      | typeError => exact caught.elim
      | other message => exact caught.elim

end TenantLibrary.OpenLibrary

namespace TenantLibrary.Ingestion

open TenantLibrary.Lib TenantLibrary.OpenLibrary TenantLibrary.Store

/-! ### The fields of a hit -/

namespace SearchHit

def key : SearchHit → OpenLibrary.Field String
  | .document doc => doc.key
  | .inSubject work => work.key

def title : SearchHit → OpenLibrary.Field String
  | .document doc => doc.title
  | .inSubject work => work.title

def subject : SearchHit → OpenLibrary.Field (List String)
  | .document doc => doc.subject
  | .inSubject work => work.subject

def cover : SearchHit → OpenLibrary.Field Int
  | .document doc => doc.coverI
  | .inSubject work => work.coverId

def firstPublishYear : SearchHit → OpenLibrary.Field Int
  | .document doc => doc.firstPublishYear
  | .inSubject work => work.firstPublishYear

/-- Only a document has an ISBN. -/
def isbn : SearchHit → Option String
  | .document doc => (doc.isbn.get []).bind List.head?
  | .inSubject _ => none

def names? : SearchHit → Option (List String)
  | .document doc => doc.authorName.get []
  | .inSubject work => (work.authors.get []).map inlineNames

def keys? : SearchHit → Option (List String)
  | .document doc => (doc.authorKey.get []).map (·.map stripKey)
  | .inSubject work => (work.authors.get []).map inlineKeys

/-- None of the fields the client and the service use without a check is `null`. -/
structure Readable (hit : SearchHit) : Prop where
  key : hit.key ≠ .null
  names : hit.names?.isSome = true
  keys : hit.keys?.isSome = true
  subject : hit.subject ≠ .null

def workKey (hit : SearchHit) : String := stripKey ((hit.key.get "").getD "")

def authorNames (hit : SearchHit) : List String := hit.names?.getD []

def authorKeys (hit : SearchHit) : List String := hit.keys?.getD []

def subjects (hit : SearchHit) : List String := ((hit.subject.get []).getD []).take 50

/-- The search result of a hit. -/
def result : SearchHit → SearchResult
  | .document doc => doc.result
  | .inSubject work => work.result

@[simp] theorem result_workKey (hit : SearchHit) : hit.result.workKey = hit.workKey := by
  cases hit <;> rfl

/-- The search result of a readable hit has the fields of the hit, and its names. -/
theorem result_eq {hit : SearchHit} (readable : hit.Readable) : hit.result =
    { workKey := hit.workKey
      title := hit.title.get "Unknown"
      authorNames := some hit.authorNames
      authorKeys := hit.authorKeys
      firstPublishYear := hit.firstPublishYear.get?
      coverId := hit.cover.get?
      subjects := hit.subjects
      isbn := hit.isbn } := by
  cases hit with
  | document doc =>
      obtain ⟨names, named⟩ := Option.isSome_iff_exists.mp readable.names
      obtain ⟨_, mapped⟩ := Option.isSome_iff_exists.mp readable.keys
      obtain ⟨keys, paired, rfl⟩ := Option.map_eq_some_iff.mp mapped
      have named : doc.authorName.get [] = some names := named
      simp [result, SearchDoc.result, Field.items, workKey, key, title, authorNames, names?,
        authorKeys, keys?, firstPublishYear, cover, subjects, subject, isbn, named, paired]
  | inSubject work =>
      obtain ⟨_, mapped⟩ := Option.isSome_iff_exists.mp readable.names
      obtain ⟨authors, credited, rfl⟩ := Option.map_eq_some_iff.mp mapped
      simp [result, SubjectWork.result, Field.items, workKey, key, title, authorNames, names?,
        authorKeys, keys?, firstPublishYear, cover, subjects, subject, isbn, credited]

end SearchHit

/-- The client and the service can use a hit exactly when it is readable. -/
theorem read_named_iff {hit : SearchHit} {result : SearchResult} :
    (hit.read = .ok result ∧ result.authorNames.isSome = true) ↔
      hit.Readable ∧ result = hit.result := by
  cases hit with
  | document doc =>
      rw [SearchHit.read, readSearchDoc_eq_ok]
      constructor
      · rintro ⟨⟨⟨key, keys, subject⟩, rfl⟩, named⟩
        have keys : (SearchHit.document doc).keys?.isSome = true := by
          simpa [SearchHit.keys?] using (isSome_iff_ne_null []).mpr keys
        exact ⟨⟨key, named, keys, subject⟩, rfl⟩
      · rintro ⟨⟨key, named, keys, subject⟩, rfl⟩
        have keys : doc.authorKey ≠ .null :=
          (isSome_iff_ne_null []).mp (by simpa [SearchHit.keys?] using keys)
        exact ⟨⟨⟨key, keys, subject⟩, rfl⟩, named⟩
  | inSubject work =>
      rw [SearchHit.read, readSubjectWork_eq_ok]
      constructor
      · rintro ⟨⟨⟨key, authors, subject⟩, rfl⟩, named⟩
        have authors := (isSome_iff_ne_null []).mpr authors
        exact ⟨⟨key, by simpa [SearchHit.names?] using authors,
          by simpa [SearchHit.keys?] using authors, subject⟩, rfl⟩
      · rintro ⟨⟨key, names, _, subject⟩, rfl⟩
        have authors : work.authors ≠ .null :=
          (isSome_iff_ne_null []).mp (by simpa [SearchHit.names?] using names)
        exact ⟨⟨⟨key, authors, subject⟩, rfl⟩, rfl⟩

/-! ### What the sources say together -/

/-- The responses of Open Library while a hit is enriched: the body of `get_work`, and the
author of each `get_author` call. -/
structure Responses where
  work : Except Failure WorkBody
  author : Nat → Except Failure AuthorDetail

/-- What the client makes of them. -/
def Responses.answers (responses : Responses) (workKey : String) : Answers where
  work := responses.work >>= getWork workKey
  author := responses.author

def SearchHit.needsEnrichment (hit : SearchHit) : Bool :=
  hit.subjects.isEmpty || hit.authorNames.isEmpty || hit.cover.get?.isNone

theorem needsEnrichment_result (hit : SearchHit) :
    (hit.subjects.isEmpty || (hit.authorNames.map some).isEmpty || hit.cover.get?.isNone) =
      hit.needsEnrichment := by
  simp [SearchHit.needsEnrichment]

/-- The work detail, if it is needed and `get_work` succeeds. -/
def SearchHit.detail (hit : SearchHit) (responses : Responses) : Option WorkBody :=
  if hit.needsEnrichment then responses.work.toOption else none

theorem detail_eq_some {hit : SearchHit} {responses : Responses} {body : WorkBody} :
    hit.detail responses = some body ↔
      hit.needsEnrichment = true ∧ responses.work = .ok body := by
  unfold SearchHit.detail
  cases needed : hit.needsEnrichment with
  | false => simp
  | true => cases responses.work <;> simp [Except.toOption]

/-- Every request ends with a response that can be used, or with an `OpenLibraryError`. -/
structure Answered (hit : SearchHit) (responses : Responses) : Prop where
  work : hit.needsEnrichment = true → Caught responses.work
  readable : ∀ body, hit.detail responses = some body → body.Readable
  authors : hit.authorNames = [] → ∀ body, hit.detail responses = some body →
    ∀ i < body.refs.length, Caught (responses.author i)

/-- The record when the detail is not needed or missing. -/
def SearchHit.partialRecord (hit : SearchHit) : WorkRecord where
  workKey := hit.workKey
  isbn := hit.isbn
  title := hit.title.get "Unknown"
  authorNames := hit.authorNames.map some
  authorKeys := hit.authorKeys
  subjects := hit.subjects
  coverId := hit.cover.get?
  firstPublishYear := hit.firstPublishYear.get?
  description := none

/-- The names of the authors a work refers to, as far as they could be fetched. -/
def Responses.names (responses : Responses) (body : WorkBody) : List (Option String) :=
  nameColumn (referenceEntries responses.author body.refs)

/-- The record when there is a detail. -/
def SearchHit.mergedRecord (hit : SearchHit) (responses : Responses) (body : WorkBody) :
    WorkRecord :=
  let fromReferences : Bool := hit.authorNames.isEmpty && !body.refs.isEmpty
  { hit.partialRecord with
    title := pyOr "" (hit.title.get "Unknown") (body.title.get "Unknown")
    authorNames := if fromReferences then responses.names body else hit.authorNames.map some
    authorKeys := if fromReferences then body.refs else hit.authorKeys
    subjects := listOr hit.subjects (((body.subjects.get []).getD []).take 50)
    coverId :=
      if hit.cover.get?.isNone then (body.covers.get []).bind List.head? else hit.cover.get?
    description := extractText body.description.get? }

def SearchHit.record (hit : SearchHit) (responses : Responses) : WorkRecord :=
  match hit.detail responses with
  | none => hit.partialRecord
  | some body => hit.mergedRecord responses body

/-- The loop over the references goes through when every call is caught. -/
theorem resolveAuthors_eq_ok {author : Nat → Except Failure AuthorDetail} {refs : List String}
    {names : List (Option String)} :
    resolveAuthors author refs = .ok names ↔
      (∀ i < refs.length, Caught (author i)) ∧ names = nameColumn (referenceEntries author refs) := by
  induction refs generalizing author names with
  | nil => simp [resolveAuthors, referenceEntries, eq_comm]
  | cons ref rest ih =>
      rw [List.length_cons, Nat.forall_lt_succ_left, resolveAuthors]
      cases answered : author 0 with
      | ok detail =>
          simp only [bind_eq_ok, ih, referenceEntries, answered, Except.toOption, Option.map_some,
            nameColumn_cons_some, Caught, true_and]
          constructor
          · rintro ⟨_, ⟨caught, rfl⟩, made⟩
            exact ⟨caught, (Except.ok.inj made).symm⟩
          · rintro ⟨caught, rfl⟩
            exact ⟨_, ⟨caught, rfl⟩, rfl⟩
      | error failure =>
          cases failure with
          | openLibraryError message =>
              simp only [ih, referenceEntries, answered, Except.toOption, Option.map_none,
                nameColumn_cons_none, Caught, true_and]
          | attributeError => simp [Caught]
          | typeError => simp [Caught]
          | other message => simp [Caught]

/-- The enrichment with a detail. -/
theorem enrich_merged_eq_ok {hit : SearchHit} {responses : Responses} {body : WorkBody}
    {record : WorkRecord} (usable : hit.Readable) (needed : hit.needsEnrichment = true)
    (answered : (responses.answers hit.workKey).work = .ok (body.detail hit.workKey)) :
    enrich hit.result (responses.answers hit.workKey) = .ok record ↔
      (hit.authorNames = [] → ∀ i < body.refs.length, Caught (responses.author i)) ∧
        record = hit.mergedRecord responses body := by
  rw [SearchHit.result_eq usable]
  unfold enrich
  dsimp only [Failure.onNone, bind, Except.bind]
  rw [needsEnrichment_result, if_pos needed, answered]
  dsimp only
  split
  case isTrue missing =>
    obtain ⟨noNames, refs⟩ : hit.authorNames = [] ∧ body.refs ≠ [] := by
      simpa [WorkBody.detail] using missing
    refine Iff.trans (@bind_eq_ok Failure _ _ (resolveAuthors responses.author body.refs) _ _) ?_
    constructor
    · rintro ⟨names, resolved, made⟩
      obtain ⟨caught, rfl⟩ := resolveAuthors_eq_ok.mp resolved
      obtain rfl := Except.ok.inj made
      refine ⟨fun _ => caught, ?_⟩
      simp [SearchHit.mergedRecord, SearchHit.partialRecord, Responses.names, WorkBody.detail,
        noNames, refs]
    · rintro ⟨caught, rfl⟩
      refine ⟨_, resolveAuthors_eq_ok.mpr ⟨caught noNames, rfl⟩, congrArg Except.ok ?_⟩
      simp [SearchHit.mergedRecord, SearchHit.partialRecord, Responses.names, WorkBody.detail,
        noNames, refs]
  case isFalse present =>
    have kept : (hit.authorNames.isEmpty && !body.refs.isEmpty) = false := by
      simpa [WorkBody.detail] using present
    have caught : hit.authorNames = [] → ∀ i < body.refs.length, Caught (responses.author i) := by
      intro noNames i below
      have noRefs : body.refs = [] := by simpa [noNames] using kept
      simp [noRefs] at below
    rw [iff_true_intro caught, true_and]
    constructor
    · intro made
      obtain rfl := Except.ok.inj made
      simp [SearchHit.mergedRecord, SearchHit.partialRecord, WorkBody.detail, kept]
    · rintro rfl
      refine congrArg Except.ok ?_
      simp [SearchHit.mergedRecord, SearchHit.partialRecord, WorkBody.detail, kept]

/-- The enrichment without a detail. -/
theorem enrich_partial_eq_ok {hit : SearchHit} {responses : Responses} {record : WorkRecord}
    (usable : hit.Readable) (missing : hit.detail responses = none) :
    enrich hit.result (responses.answers hit.workKey) = .ok record ↔
      (hit.needsEnrichment = true → Caught responses.work) ∧ record = hit.partialRecord := by
  rw [SearchHit.result_eq usable]
  unfold enrich
  dsimp only [Failure.onNone, bind, Except.bind]
  rw [needsEnrichment_result]
  cases needed : hit.needsEnrichment with
  | false =>
      rw [if_neg Bool.false_ne_true]
      simp [SearchHit.partialRecord, pure, Except.pure, eq_comm]
  | true =>
      rw [if_pos rfl]
      cases answered : responses.work with
      | ok body =>
          rw [detail_eq_some.mpr ⟨needed, answered⟩] at missing
          cases missing
      | error failure =>
          have failed : (responses.answers hit.workKey).work = .error failure := by
            rw [Responses.answers, answered]
            rfl
          rw [failed]
          cases failure with
          | openLibraryError message =>
              simp [SearchHit.partialRecord, Caught, pure, Except.pure, eq_comm]
          | attributeError => simp [Caught]
          | typeError => simp [Caught]
          | other message => simp [Caught]

/-- An enrichment that ends has caught the outcome of `get_work`. -/
theorem caught_of_enriched {hit : SearchHit} {answers : Answers} {record : WorkRecord}
    (usable : hit.Readable) (needed : hit.needsEnrichment = true)
    (enriched : enrich hit.result answers = .ok record) : Caught answers.work := by
  rw [SearchHit.result_eq usable] at enriched
  unfold enrich at enriched
  dsimp only [Failure.onNone, bind, Except.bind] at enriched
  rw [needsEnrichment_result, if_pos needed] at enriched
  cases answered : answers.work with
  | ok detail => trivial
  | error failure =>
      rw [answered] at enriched
      cases failure with
      | openLibraryError message => trivial
      | attributeError => cases enriched
      | typeError => cases enriched
      | other message => cases enriched

/-- A readable hit is enriched exactly when every request is answered, and the result is its
record. -/
theorem enrich_hit_iff {hit : SearchHit} {responses : Responses} {record : WorkRecord}
    (usable : hit.Readable) :
    enrich hit.result (responses.answers hit.workKey) = .ok record ↔
      Answered hit responses ∧ record = hit.record responses := by
  cases found : hit.detail responses with
  | none =>
      rw [enrich_partial_eq_ok usable found, SearchHit.record, found]
      constructor
      · rintro ⟨caught, rfl⟩
        exact ⟨⟨caught, by simp [found], by simp [found]⟩, rfl⟩
      · rintro ⟨answered, rfl⟩
        exact ⟨answered.work, rfl⟩
  | some body =>
      obtain ⟨needed, arrived⟩ := detail_eq_some.mp found
      have work : (responses.answers hit.workKey).work = getWork hit.workKey body := by
        rw [Responses.answers, arrived]
        rfl
      rw [SearchHit.record, found]
      dsimp only
      by_cases readable : body.Readable
      · rw [enrich_merged_eq_ok usable needed (work.trans (getWork_eq_ok.mpr ⟨readable, rfl⟩))]
        constructor
        · rintro ⟨authors, rfl⟩
          refine ⟨⟨fun _ => ?_, ?_, ?_⟩, rfl⟩
          · rw [arrived]
            trivial
          · simpa [found] using readable
          · simpa [found] using authors
        · rintro ⟨answered, rfl⟩
          exact ⟨fun noNames => answered.authors noNames body found, rfl⟩
      · constructor
        · intro enriched
          have caught := caught_of_enriched usable needed enriched
          rw [work] at caught
          exact absurd (readable_of_caught caught) readable
        · rintro ⟨answered, rfl⟩
          exact absurd (answered.readable body found) readable

/-! ### What a work brings -/

instance {α : Type} : DecidablePred (@Caught α)
  | .ok _ => isTrue trivial
  | .error (.openLibraryError _) => isTrue trivial
  | .error .attributeError => isFalse id
  | .error .typeError => isFalse id
  | .error (.other _) => isFalse id

/-- The work can be enriched: the search names its authors, and what is asked of Open
Library is answered, or fails with an error that is caught. -/
def WorkInput.enriches (work : WorkInput) : Bool :=
  match work.result.authorNames with
  | none => false
  | some names =>
      if work.result.subjects.isEmpty || names.isEmpty || work.result.coverId.isNone then
        match work.answers.work with
        | .error failure => Caught (.error failure : Except Failure WorkDetail)
        | .ok workDetail =>
            !names.isEmpty ||
              (List.range workDetail.authorRefs.length).all fun i => Caught (work.answers.author i)
      else true

/-- The subjects of the search result or, where it has none, of the work detail. -/
def WorkInput.subjects (work : WorkInput) : List String :=
  listOr work.result.subjects
    (match work.answers.work with
    | .ok workDetail => workDetail.subjects
    | .error _ => [])

/-- The keys the author loop looks up: one for each name of the search result or, where it
names no author, for each reference of the work detail that was fetched. -/
def WorkInput.olAuthorKeys (work : WorkInput) : List String :=
  match work.result.authorNames, work.answers.work with
  | some [], .ok workDetail =>
      let fetched := nameColumn (referenceEntries work.answers.author workDetail.authorRefs)
      keysFor fetched.length workDetail.authorRefs
  | names, _ => keysFor (names.getD []).length work.result.authorKeys
where
  /-- The first keys; where there are too few, they are drawn. -/
  keysFor (count : Nat) (keys : List String) : List String :=
    (List.range count).map fun i => keys[i]?.getD ("unknown-" ++ work.draws.keySuffix i)

theorem listOr_nil {α : Type} (xs : List α) : listOr xs [] = xs := by
  cases xs <;> rfl

/-- The loop over the references ends with the first call that is not caught. -/
theorem resolveAuthors_total (author : Nat → Except Failure AuthorDetail) (refs : List String) :
    if ∀ i < refs.length, Caught (author i) then ∃ names, resolveAuthors author refs = .ok names
    else ∃ failure, resolveAuthors author refs = .error failure := by
  split
  case isTrue caught => exact ⟨_, resolveAuthors_eq_ok.mpr ⟨caught, rfl⟩⟩
  case isFalse raised =>
    cases resolved : resolveAuthors author refs with
    | ok names => exact absurd (resolveAuthors_eq_ok.mp resolved).1 raised
    | error failure => exact ⟨failure, rfl⟩

/-- A work that can be enriched becomes a record with its key and its subjects; for every
other work `enrich` raises. -/
theorem enrich_total (work : WorkInput) :
    if work.enriches then
      ∃ record, enrich work.result work.answers = .ok record ∧
        record.workKey = work.result.workKey ∧ record.subjects = work.subjects
    else ∃ failure, enrich work.result work.answers = .error failure := by
  unfold WorkInput.enriches WorkInput.subjects enrich
  cases named : work.result.authorNames with
  | none => exact ⟨_, rfl⟩
  | some names =>
      by_cases needed :
          work.result.subjects.isEmpty || names.isEmpty || work.result.coverId.isNone
      · simp only [Failure.onNone, bind, Except.bind, List.isEmpty_map, needed, if_true]
        cases answered : work.answers.work with
        | error failure =>
            cases failure with
            | openLibraryError message => exact ⟨_, rfl, rfl, (listOr_nil _).symm⟩
            | attributeError => exact ⟨_, rfl⟩
            | typeError => exact ⟨_, rfl⟩
            | other message => exact ⟨_, rfl⟩
        | ok workDetail =>
            dsimp only
            by_cases unnamed : names.isEmpty
            · simp only [unnamed, Bool.not_true, Bool.false_or, Bool.true_and]
              have resolved := resolveAuthors_total work.answers.author workDetail.authorRefs
              cases refs : workDetail.authorRefs with
              | nil => exact ⟨_, rfl, rfl, rfl⟩
              | cons ref rest =>
                  rw [refs] at resolved
                  simp only [List.all_eq_true, List.mem_range, decide_eq_true_eq]
                  split at resolved
                  case isTrue caught =>
                    obtain ⟨resolvedNames, resolved⟩ := resolved
                    rw [if_pos caught]
                    simp only [List.isEmpty_cons, Bool.not_false, if_true, resolved]
                    exact ⟨_, rfl, rfl, rfl⟩
                  case isFalse raised =>
                    obtain ⟨failure, resolved⟩ := resolved
                    rw [if_neg raised]
                    simp only [List.isEmpty_cons, Bool.not_false, if_true, resolved]
                    exact ⟨_, rfl⟩
            · simp only [unnamed, Bool.not_false, Bool.true_or, if_true, Bool.false_and]
              exact ⟨_, rfl, rfl, rfl⟩
      · have given : ¬ work.result.subjects.isEmpty := fun empty => needed (by simp [empty])
        simp only [Failure.onNone, bind, Except.bind, List.isEmpty_map, needed]
        refine ⟨_, rfl, rfl, ?_⟩
        simp [listOr, given]

theorem olAuthorKeys_record (record : WorkRecord) (work : WorkInput) :
    record.authorCalls.map (·.olAuthorKey work.draws) =
      WorkInput.olAuthorKeys.keysFor work record.authorNames.length record.authorKeys := by
  have positions : record.authorNames.zipIdx.map Prod.snd =
      List.range record.authorNames.length := by
    rw [List.zipIdx_map_snd, List.range_eq_range']
  rw [WorkInput.olAuthorKeys.keysFor, ← positions, List.map_map, WorkRecord.authorCalls,
    List.map_map]
  rfl

/-- A work becomes a record with its key, its author keys and its subjects. -/
theorem enriched_fields {work : WorkInput} {record : WorkRecord}
    (enriched : enrich work.result work.answers = .ok record) :
    record.workKey = work.result.workKey ∧ record.subjects = work.subjects ∧
      record.authorCalls.map (·.olAuthorKey work.draws) = work.olAuthorKeys := by
  have total := enrich_total work
  split at total
  case isTrue =>
    obtain ⟨_, same, key, subjects⟩ := total
    obtain rfl := Except.ok.inj (same.symm.trans enriched)
    refine ⟨key, subjects, ?_⟩
    rw [olAuthorKeys_record]
    unfold WorkInput.olAuthorKeys
    obtain ⟨names, named, authors⟩ := enrich_authors enriched
    rw [named]
    rcases authors with ⟨sameNames, sameKeys, noRefs⟩ |
      ⟨rfl, workDetail, answered, _, resolved, sameKeys⟩
    · rw [sameNames, sameKeys, List.length_map]
      cases names with
      | cons name rest => rfl
      | nil =>
          cases answered : work.answers.work with
          | error failure => rfl
          | ok workDetail =>
              dsimp only
              rw [noRefs rfl workDetail answered]
              rfl
    · rw [answered, sameKeys, (resolveAuthors_eq_ok.mp resolved).2]
  case isFalse =>
    obtain ⟨failure, failed⟩ := total
    cases failed.symm.trans enriched

end TenantLibrary.Ingestion
