import TenantLibrary.Ingestion.Enrichment
import TenantLibrary.Ingestion.Storable

/-!
Whether a stored record is complete.

A field of a hit and of its work detail counts when it is there, not `null` and not the
value the service takes for none. `Completes` says that the work is stored, that each field
is stored from the hit or else from the detail, and that a real title only gives way to a
title some source has. `completes_iff` says exactly when this is so, whatever was stored
before and whatever rows the database refuses; in the other cases the client's placeholder
"Unknown" hides or replaces a title, a cover of 0 hides the detail's, a column cuts what a
source has, or the work is not stored at all.
-/

namespace TenantLibrary.Ingestion

open TenantLibrary.Lib TenantLibrary.OpenLibrary TenantLibrary.Store

variable {refuse : Refusal} {tenantId newId : Uuid} {record : WorkRecord} {draws : Draws}
  {c after : Catalog}

/-! ### What the sources have -/

/-- What a source has: `None` and the falsy value are nothing. -/
def given {α : Type} [DecidableEq α] (falsy : α) (x : Option α) : Option α :=
  x.filter fun a => a ≠ falsy

/-- The title of the hit, or else of the detail. -/
def SearchHit.sourceTitle (hit : SearchHit) (responses : Responses) : Option String :=
  (given "" hit.title.get?).or
    ((hit.detail responses).bind fun body => given "" body.title.get?)

/-- The cover of the hit, or else the first one of the detail. -/
def SearchHit.sourceCover (hit : SearchHit) (responses : Responses) : Option Int :=
  (given 0 hit.cover.get?).or
    ((hit.detail responses).bind fun body => given 0 ((body.covers.get []).bind List.head?))

/-- The first fifty subjects of the hit, or else of the detail. -/
def SearchHit.sourceSubjects (hit : SearchHit) (responses : Responses) : List String :=
  listOr hit.subjects ((hit.detail responses).elim [] fun body =>
    ((body.subjects.get []).getD []).take 50)

/-- The author loop over the authors of the hit. -/
def SearchHit.authorCalls (hit : SearchHit) : List AuthorCall := hit.partialRecord.authorCalls

/-- A title that is not the client's placeholder. -/
def Real (title : String) : Prop := title ≠ "" ∧ title ≠ "Unknown"

/-- The work's book is stored with a real title. -/
def HasRealTitle (tenantId : Uuid) (hit : SearchHit) (c : Catalog) : Prop :=
  ∃ old, findBook tenantId hit.workKey c = some old ∧ Real old.title

/-- An author with the call's key is linked to the book: one that was stored before, or one
whose name comes with the key. -/
def Linked (tenantId bookId : Uuid) (draws : Draws) (calls : List AuthorCall) (c after : Catalog)
    (call : AuthorCall) : Prop :=
  ∃ a ∈ after.authors.rows, a.tenantId = tenantId ∧ a.olAuthorKey = call.olAuthorKey draws ∧
    ⟨bookId, a.id⟩ ∈ after.bookAuthors.rows ∧
      (a ∈ c.authors.rows ∨
        ∃ other ∈ calls, other.olAuthorKey draws = a.olAuthorKey ∧ other.name = some a.name)

/-- The book has what the sources have. -/
structure Complete (tenantId : Uuid) (hit : SearchHit) (responses : Responses) (draws : Draws)
    (c after : Catalog) (b : Book) : Prop where
  title : ∀ title, hit.sourceTitle responses = some title → b.title = title
  noPlaceholder : hit.sourceTitle responses = none → HasRealTitle tenantId hit c →
    b.title ≠ "Unknown"
  cover : ∀ coverId, hit.sourceCover responses = some coverId →
    b.coverId = some coverId ∧ b.coverUrl = some (buildCoverUrl coverId)
  subjects : ∀ subject ∈ hit.sourceSubjects responses, HasSubject b.id subject after
  isbn : ∀ isbn, given "" hit.isbn = some isbn → b.isbn = some isbn
  year : ∀ year, given 0 hit.firstPublishYear.get? = some year → b.firstPublishYear = some year
  authors : ∀ call ∈ hit.authorCalls, Linked tenantId b.id draws hit.authorCalls c after call

/-! ### When a stored record is complete -/

/-- The title is stored as it should be. -/
def TitleHolds (tenantId : Uuid) (hit : SearchHit) (responses : Responses) (c : Catalog) : Prop :=
  match hit.title, hit.detail responses with
  | .value _, none => True
  | .null, none => False
  -- the placeholder passes for a title
  | .absent, none => ¬ HasRealTitle tenantId hit c
  | .absent, some body =>
      body.title = .value "Unknown" ∨
        given "" body.title.get? = none ∧ ¬ HasRealTitle tenantId hit c
  | .value title, some body => title ≠ "" ∨ DetailTitleHolds body
  | .null, some body => DetailTitleHolds body
where
  /-- The title of the detail is stored as it should be, when it is taken. -/
  DetailTitleHolds (body : WorkBody) : Prop :=
    match body.title with
    | .value _ => True
    | .null => False
    | .absent => ¬ HasRealTitle tenantId hit c

/-- A cover of 0 does not hide the detail's, unless the book has that cover already. -/
def CoverHolds (tenantId : Uuid) (hit : SearchHit) (responses : Responses) (c : Catalog) : Prop :=
  hit.cover = .value 0 → ∀ coverId, hit.sourceCover responses = some coverId →
    ∃ old, findBook tenantId hit.workKey c = some old ∧ old.coverId = some coverId ∧
      old.coverUrl = some (buildCoverUrl coverId)

/-- An author record without a name has the key of a stored author, or the one that the
column makes of a key before it. -/
def ReferencesNamed (tenantId : Uuid) (responses : Responses) (body : WorkBody) (c : Catalog) :
    Prop :=
  ∀ (i : Nat) (ref : String), (responses.names body)[i]? = some none → body.refs[i]? = some ref →
    Known tenantId c ref ∨ ∃ j < i, ∃ earlier, body.refs[j]? = some earlier ∧ cut 50 earlier = ref

/-- The columns cut none of the texts that the sources have. A new author's name may be cut
when it also comes with the key as it is cut. -/
structure TextsKept (tenantId : Uuid) (hit : SearchHit) (responses : Responses) (draws : Draws)
    (c : Catalog) : Prop where
  workKey : cut 50 hit.workKey = hit.workKey
  title : ∀ title, hit.sourceTitle responses = some title → cut 1000 title = title
  isbn : ∀ isbn, given "" hit.isbn = some isbn → cut 20 isbn = isbn
  subjects : ∀ subject ∈ hit.sourceSubjects responses, cut 500 subject = subject
  authorKeys : ∀ call ∈ hit.authorCalls, cut 50 (call.olAuthorKey draws) = call.olAuthorKey draws
  authorNames : ∀ i call, Introduces tenantId draws c hit.authorCalls i call →
    ∃ other ∈ hit.authorCalls, other.olAuthorKey draws = call.olAuthorKey draws ∧
      other.name = call.name.map (cut 500)

section

variable {hit : SearchHit} {responses : Responses}

@[simp] theorem given_none {α : Type} [DecidableEq α] (falsy : α) : given falsy none = none := rfl

@[simp] theorem given_some_falsy {α : Type} [DecidableEq α] (falsy : α) :
    given falsy (some falsy) = none := by
  simp [given]

theorem given_some {α : Type} [DecidableEq α] {falsy a : α} (truthy : a ≠ falsy) :
    given falsy (some a) = some a := by
  simp [given, truthy]

theorem given_eq_some_iff {α : Type} [DecidableEq α] {falsy a : α} {x : Option α} :
    given falsy x = some a ↔ x = some a ∧ a ≠ falsy := by
  simp [given, Option.filter_eq_some_iff]

/-- The detail's title is as it should be where the hit has none. -/
theorem detailTitleHolds_iff {body : WorkBody} :
    TitleHolds.DetailTitleHolds tenantId hit c body ↔
      ∃ title, body.title.get "Unknown" = some title ∧
        (∀ source, given "" body.title.get? = some source → title = source) ∧
          (given "" body.title.get? = none → HasRealTitle tenantId hit c → title ≠ "Unknown") := by
  unfold TitleHolds.DetailTitleHolds
  cases body.title with
  | absent => simp
  | null => simp
  | value title =>
      by_cases empty : title = ""
      · subst empty
        simp
      · simp [given_some empty]

/-- The title of the record is as it should be. -/
theorem titleHolds_iff : TitleHolds tenantId hit responses c ↔
    ∃ title, (hit.record responses).title = some title ∧
      (∀ source, hit.sourceTitle responses = some source → title = source) ∧
        (hit.sourceTitle responses = none → HasRealTitle tenantId hit c → title ≠ "Unknown") := by
  unfold TitleHolds SearchHit.sourceTitle SearchHit.record
  cases found : hit.detail responses with
  | none =>
      cases titled : hit.title with
      | absent => simp [SearchHit.partialRecord, titled]
      | null => simp [SearchHit.partialRecord, titled]
      | value title =>
          by_cases empty : title = ""
          · subst empty
            simp [SearchHit.partialRecord, titled]
          · simp [SearchHit.partialRecord, titled, given_some empty]
  | some body =>
      cases titled : hit.title with
      | absent =>
          -- the placeholder hides whatever title the detail has
          have hidden : (hit.mergedRecord responses body).title = some "Unknown" := by
            simp [SearchHit.mergedRecord, titled, pyOr]
          cases detailed : body.title with
          | absent => simp [hidden, detailed]
          | null => simp [hidden, detailed]
          | value title =>
              by_cases empty : title = ""
              · subst empty
                simp [hidden, detailed]
              · simpa [hidden, detailed, given_some empty] using eq_comm
      | null =>
          have taken : (hit.mergedRecord responses body).title = body.title.get "Unknown" := by
            simp [SearchHit.mergedRecord, titled, pyOr]
          simpa [taken] using detailTitleHolds_iff
      | value title =>
          by_cases empty : title = ""
          · have taken : (hit.mergedRecord responses body).title = body.title.get "Unknown" := by
              simp [SearchHit.mergedRecord, titled, empty, pyOr]
            simpa [taken, empty] using detailTitleHolds_iff
          · simp [SearchHit.mergedRecord, titled, given_some empty, pyOr, empty]

/-- The title of a record has a source, or is the placeholder or empty. -/
theorem source_of_titled {title : String} (titled : (hit.record responses).title = some title) :
    hit.sourceTitle responses = some title ∨
      hit.sourceTitle responses = none ∧ title = "" ∨ title = "Unknown" := by
  have own (x : OpenLibrary.Field String) (taken : x.get "Unknown" = some title) :
      given "" x.get? = some title ∨ given "" x.get? = none ∧ title = "" ∨ title = "Unknown" := by
    cases x with
    | absent => exact .inr (.inr (Option.some.inj taken).symm)
    | null => cases taken
    | value text =>
        obtain rfl : text = title := Option.some.inj taken
        by_cases empty : text = ""
        · subst empty
          simp
        · exact .inl (given_some empty)
  unfold SearchHit.record at titled
  unfold SearchHit.sourceTitle
  cases found : hit.detail responses with
  | none =>
      rw [found] at titled
      simpa using own hit.title titled
  | some body =>
      rw [found] at titled
      replace titled : pyOr "" (hit.title.get "Unknown") (body.title.get "Unknown") = some title :=
        titled
      cases isTitle : hit.title with
      | absent =>
          rw [isTitle] at titled
          exact .inr (.inr (Option.some.inj titled).symm)
      | null =>
          rw [isTitle] at titled
          simpa using own body.title titled
      | value text =>
          rw [isTitle] at titled
          by_cases empty : text = ""
          · subst empty
            simpa using own body.title (by simpa [pyOr] using titled)
          · obtain rfl : text = title := by simpa [pyOr, empty] using titled
            exact .inl (by simp [given_some empty])

theorem record_workKey : (hit.record responses).workKey = hit.workKey := by
  unfold SearchHit.record
  split <;> rfl

theorem pyOr_of_given {α : Type} [DecidableEq α] {falsy a : α} {x : Option α} (y : Option α)
    (isGiven : given falsy x = some a) : pyOr falsy x y = some a := by
  obtain ⟨rfl, truthy⟩ := given_eq_some_iff.mp isGiven
  simp [pyOr, truthy]

theorem coverUrl_of_given {x : Option Int} {coverId : Int} (isGiven : given 0 x = some coverId) :
    coverUrl x = some (buildCoverUrl coverId) := by
  obtain ⟨rfl, truthy⟩ := given_eq_some_iff.mp isGiven
  simp [coverUrl, truthy]

/-! The columns of the row of a stored record. -/

variable {title : String} {b : Book}

/-- A column the record has is the record's, cut; otherwise an old book keeps its own. -/
theorem RowOf.columns (row : RowOf tenantId record newId title c b) :
    b.title = cut 1000 title ∧
      (∀ isbn, given "" record.isbn = some isbn → b.isbn = some (cut 20 isbn)) ∧
      (∀ year, given 0 record.firstPublishYear = some year → b.firstPublishYear = some year) ∧
      ∀ coverId, given 0 record.coverId = some coverId →
        b.coverId = some coverId ∧ b.coverUrl = some (buildCoverUrl coverId) := by
  unfold RowOf at row
  split at row
  · subst row
    refine ⟨rfl, fun isbn isGiven => ?_, fun year isGiven => ?_, fun coverId isGiven => ?_⟩
    · exact congrArg (Option.map (cut 20)) (given_eq_some_iff.mp isGiven).1
    · exact (given_eq_some_iff.mp isGiven).1
    · refine ⟨(given_eq_some_iff.mp isGiven).1, ?_⟩
      exact (cut_coverUrl 500 record.coverId).trans (coverUrl_of_given isGiven)
  · subst row
    simp only [Book.assign, if_true, mergedValues, BookValues.cut]
    refine ⟨trivial, fun isbn isGiven => ?_, fun year isGiven => ?_, fun coverId isGiven => ?_⟩
    · exact congrArg (Option.map (cut 20)) (pyOr_of_given _ isGiven)
    · exact pyOr_of_given _ isGiven
    · refine ⟨pyOr_of_given _ isGiven, ?_⟩
      rw [coverUrl_of_given isGiven,
        pyOr_of_given _ (given_some (buildCoverUrl_ne_empty coverId)), Option.map_some,
        cut_buildCoverUrl]

/-- A record with the cover 0 only leaves a book with a cover if the old one has it. -/
theorem RowOf.zero_cover (whole : c.Whole) (row : RowOf tenantId record newId title c b)
    (zero : record.coverId = some 0) {coverId : Int} (nonzero : coverId ≠ 0) :
    (b.coverId = some coverId ∧ b.coverUrl = some (buildCoverUrl coverId)) ↔
      ∃ old, findBook tenantId record.workKey c = some old ∧ old.coverId = some coverId ∧
        old.coverUrl = some (buildCoverUrl coverId) := by
  unfold RowOf at row
  cases found : findBook tenantId record.workKey c with
  | none =>
      rw [found] at row
      subst row
      simp [insertedBook, newBook, BookValues.cut, newValues, zero, nonzero.symm]
  | some old =>
      rw [found] at row
      subst row
      have kept := (whole.books old (findBook_eq_some.mp found).1).coverUrl
      simp [Book.assign, BookValues.cut, mergedValues, zero, pyOr, coverUrl, kept]

theorem nonzero_of_sourceCover {coverId : Int} (source : hit.sourceCover responses = some coverId) :
    coverId ≠ 0 := by
  rcases Option.or_eq_some_iff.mp source with own | ⟨_, detailed⟩
  · exact (given_eq_some_iff.mp own).2
  · obtain ⟨body, _, isGiven⟩ := Option.bind_eq_some_iff.mp detailed
    exact (given_eq_some_iff.mp isGiven).2

/-- Unless the hit's cover is 0, the record has the cover the sources have. -/
theorem sourceCover_of_ne_zero (nonzero : hit.cover ≠ .value 0) :
    hit.sourceCover responses = given 0 (hit.record responses).coverId := by
  unfold SearchHit.sourceCover SearchHit.record
  cases hit.detail responses with
  | none => simp [SearchHit.partialRecord]
  | some body =>
      cases covered : hit.cover with
      | absent => simp [SearchHit.mergedRecord, covered]
      | null => simp [SearchHit.mergedRecord, covered]
      | value coverId =>
          have truthy : coverId ≠ 0 := fun zero => nonzero (covered.trans (congrArg _ zero))
          simp [SearchHit.mergedRecord, covered, given_some truthy]

/-- The cover is stored as it should be. -/
theorem coverHolds_iff (whole : c.Whole)
    (row : RowOf tenantId (hit.record responses) newId title c b) :
    CoverHolds tenantId hit responses c ↔
      ∀ coverId, hit.sourceCover responses = some coverId →
        b.coverId = some coverId ∧ b.coverUrl = some (buildCoverUrl coverId) := by
  by_cases zero : hit.cover = .value 0
  · have same : (hit.record responses).coverId = some 0 := by
      unfold SearchHit.record
      split <;> simp [SearchHit.partialRecord, SearchHit.mergedRecord, zero]
    have stored (coverId : Int) (source : hit.sourceCover responses = some coverId) :
        (b.coverId = some coverId ∧ b.coverUrl = some (buildCoverUrl coverId)) ↔
          ∃ old, findBook tenantId hit.workKey c = some old ∧ old.coverId = some coverId ∧
            old.coverUrl = some (buildCoverUrl coverId) := by
      have nonzero : coverId ≠ 0 := nonzero_of_sourceCover source
      have iff_ := row.zero_cover whole same nonzero
      rwa [record_workKey] at iff_
    exact ⟨fun holds coverId source => (stored coverId source).mpr (holds zero coverId source),
      fun has _ coverId source => (stored coverId source).mp (has coverId source)⟩
  · refine ⟨fun _ coverId source => ?_, fun _ isZero => absurd isZero zero⟩
    rw [sourceCover_of_ne_zero zero] at source
    exact row.columns.2.2.2 coverId source

/-! The authors of the record. -/

theorem getElem?_authorCalls (record : WorkRecord) (i : Nat) :
    record.authorCalls[i]? =
      record.authorNames[i]?.map fun name => ⟨i, record.authorKeys[i]?, name⟩ := by
  simp only [WorkRecord.authorCalls, List.getElem?_map, List.getElem?_zipIdx, Option.map_map,
    Nat.zero_add]
  rfl

theorem length_names_le (body : WorkBody) : (responses.names body).length ≤ body.refs.length := by
  have length (author : Nat → Except Failure AuthorDetail) (refs : List String) :
      (referenceEntries author refs).length = refs.length := by
    induction refs generalizing author with
    | nil => rfl
    | cons ref rest ih => simp [referenceEntries, ih]
  calc (responses.names body).length
      ≤ (referenceEntries responses.author body.refs).length := List.length_filterMap_le _ _
    _ = body.refs.length := length _ _

/-- With names and keys from the references, the calls are named when the references are. -/
theorem callsNamed_of_references {body : WorkBody} (names : record.authorNames = responses.names body)
    (keys : record.authorKeys = body.refs) :
    CallsNamed tenantId draws c record.authorCalls ↔ ReferencesNamed tenantId responses body c := by
  have key {i : Nat} {ref : String} (isRef : body.refs[i]? = some ref) (name : Option String) :
      (⟨i, record.authorKeys[i]?, name⟩ : AuthorCall).olAuthorKey draws = ref := by
    rw [keys, isRef]
    rfl
  have refOf {i : Nat} {name : Option String} (isName : (responses.names body)[i]? = some name) :
      ∃ ref, body.refs[i]? = some ref := by
    obtain ⟨below, _⟩ := List.getElem?_eq_some_iff.mp isName
    exact ⟨_, List.getElem?_eq_getElem (below.trans_le (length_names_le body))⟩
  unfold CallsNamed ReferencesNamed
  constructor
  · intro named i ref isNull isRef
    have found : record.authorCalls[i]? = some ⟨i, record.authorKeys[i]?, none⟩ := by
      rw [getElem?_authorCalls, names, isNull]
      rfl
    rcases named i _ found rfl with known | ⟨j, before, earlier, isEarlier, same⟩
    · exact .inl (key isRef none ▸ known)
    · rw [getElem?_authorCalls, names] at isEarlier
      obtain ⟨name, isName, rfl⟩ := Option.map_eq_some_iff.mp isEarlier
      obtain ⟨other, isOther⟩ := refOf isName
      rw [key isOther, key isRef] at same
      exact .inr ⟨j, before, other, isOther, same⟩
  · intro named i call found nameless
    rw [getElem?_authorCalls, names] at found
    obtain ⟨name, isName, rfl⟩ := Option.map_eq_some_iff.mp found
    obtain rfl : name = none := nameless
    obtain ⟨ref, isRef⟩ := refOf isName
    rw [key isRef]
    rcases named i ref isName isRef with known | ⟨j, before, other, isEarlier, same⟩
    · exact .inl known
    · have shorter : j < (responses.names body).length :=
        before.trans (List.getElem?_eq_some_iff.mp isName).1
      refine .inr ⟨j, before, ⟨j, record.authorKeys[j]?, (responses.names body)[j]⟩, ?_, ?_⟩
      · rw [getElem?_authorCalls, names, List.getElem?_eq_getElem shorter]
        rfl
      · rw [key isEarlier, same]

/-- Calls for the names of a hit are named. -/
theorem callsNamed_of_some {names : List String} (given : record.authorNames = names.map some) :
    CallsNamed tenantId draws c record.authorCalls := by
  intro i call found nameless
  rw [getElem?_authorCalls, given, List.getElem?_map] at found
  obtain ⟨name, isName, rfl⟩ := Option.map_eq_some_iff.mp found
  obtain ⟨text, _, rfl⟩ := Option.map_eq_some_iff.mp isName
  cases nameless

theorem callsNamed_record_iff :
    CallsNamed tenantId draws c (hit.record responses).authorCalls ↔
      (hit.authorNames = [] → ∀ body, hit.detail responses = some body →
        ReferencesNamed tenantId responses body c) := by
  unfold SearchHit.record
  cases found : hit.detail responses with
  | none =>
      refine iff_of_true (callsNamed_of_some rfl) ?_
      simp
  | some body =>
      dsimp only
      by_cases references : hit.authorNames = [] ∧ body.refs ≠ []
      · have names : (hit.mergedRecord responses body).authorNames = responses.names body := by
          simp [SearchHit.mergedRecord, references]
        have keys : (hit.mergedRecord responses body).authorKeys = body.refs := by
          simp [SearchHit.mergedRecord, references]
        rw [callsNamed_of_references names keys]
        simp [references]
      · have own : (hit.authorNames.isEmpty && !body.refs.isEmpty) = false := by
          simpa using references
        refine iff_of_true (callsNamed_of_some (if_neg (own ▸ Bool.false_ne_true))) ?_
        intro noNames other same i ref _ isRef
        obtain rfl := Option.some.inj same
        have noRefs : body.refs = [] := by simpa [noNames] using own
        simp [noRefs] at isRef

end

/-! ### From the responses to the rows -/

/-- One hit of a search is read, enriched and stored. -/
def storeHit (refuse : Refusal) (tenantId : Uuid) (hit : SearchHit) (responses : Responses)
    (draws : Draws) : IngestM Unit := do
  let result ← liftAnswer hit.read
  enrichAndStore tenantId ⟨result, responses.answers result.workKey, draws, refuse⟩

/-- The hit is stored, and its book has what the sources have. -/
def Completes (refuse : Refusal) (tenantId : Uuid) (hit : SearchHit) (responses : Responses)
    (draws : Draws) (c : Catalog) (s : Session Database Write) : Prop :=
  ∃ t b, SessionM.runOn (storeHit refuse tenantId hit responses draws) s = (.ok (), t) ∧
    findBook tenantId hit.workKey t.tx.catalog = some b ∧
      Complete tenantId hit responses draws c t.tx.catalog b

/-- What the responses and the stored rows have to be like. -/
structure Completable (refuse : Refusal) (tenantId : Uuid) (hit : SearchHit)
    (responses : Responses) (draws : Draws) (c : Catalog) : Prop where
  accepted : RowsAccepted refuse tenantId (hit.record responses) draws c
  kept : TextsKept tenantId hit responses draws c
  readable : hit.Readable
  answered : Answered hit responses
  references : hit.authorNames = [] → ∀ body, hit.detail responses = some body →
    ReferencesNamed tenantId responses body c
  title : TitleHolds tenantId hit responses c
  cover : CoverHolds tenantId hit responses c

variable {hit : SearchHit} {responses : Responses} {base db : Database}
  {s t : Session Database Write}

theorem enrich_of_nameless {result : SearchResult} (nameless : result.authorNames = none)
    (answers : Answers) : enrich result answers = .error .typeError := by
  unfold enrich
  rw [nameless]
  rfl

/-- A call that returns has enriched its result and stored the record. -/
theorem runOn_enrichAndStore_eq_ok (ready : Ready base db s) {work : WorkInput} :
    SessionM.runOn (enrichAndStore tenantId work) s = (.ok (), t) ↔
      ∃ record after, enrich work.result work.answers = .ok record ∧
        putRecord work.refuse tenantId record work.draws db.catalog = .ok ((), after) ∧
          t = ⟨base, { db with catalog := after }, [], false⟩ := by
  rw [runOn_enrichAndStore ready]
  unfold putWork
  cases enriched : enrich work.result work.answers with
  | error failure => simp
  | ok record =>
      simp only [StateT.run, Except.ok.injEq, exists_and_left, exists_eq_left']
      cases stored : putRecord work.refuse tenantId record work.draws db.catalog with
      | error refusal => simp
      | ok reached => simp [eq_comm, Prod.ext_iff]

/-- A run that stores a hit. -/
theorem runOn_storeHit_eq_ok (ready : Ready base db s) :
    SessionM.runOn (storeHit refuse tenantId hit responses draws) s = (.ok (), t) ↔
      hit.Readable ∧ Answered hit responses ∧
        ∃ after, putRecord refuse tenantId (hit.record responses) draws db.catalog =
          .ok ((), after) ∧ t = ⟨base, { db with catalog := after }, [], false⟩ := by
  by_cases usable : hit.Readable
  · obtain ⟨read, _⟩ := read_named_iff.mpr ⟨usable, rfl⟩
    have ran : SessionM.runOn (storeHit refuse tenantId hit responses draws) s =
        SessionM.runOn (enrichAndStore tenantId
          ⟨hit.result, responses.answers hit.workKey, draws, refuse⟩) s := by
      unfold storeHit
      rw [read, ← hit.result_workKey]
      rfl
    rw [ran, runOn_enrichAndStore_eq_ok ready]
    constructor
    · rintro ⟨record, after, enriched, stored, rfl⟩
      obtain ⟨answered, rfl⟩ := (enrich_hit_iff usable).mp enriched
      exact ⟨usable, answered, after, stored, rfl⟩
    · rintro ⟨_, answered, after, stored, rfl⟩
      exact ⟨_, after, (enrich_hit_iff usable).mpr ⟨answered, rfl⟩, stored, rfl⟩
  · refine iff_of_false (fun ran => ?_) fun stored => usable stored.1
    cases read : hit.read with
    | error failure =>
        unfold storeHit at ran
        rw [read] at ran
        cases ran
    | ok result =>
        have called : SessionM.runOn (enrichAndStore tenantId
            ⟨result, responses.answers result.workKey, draws, refuse⟩) s = (.ok (), t) := by
          unfold storeHit at ran
          rw [read] at ran
          exact ran
        obtain ⟨record, _, enriched, _⟩ := (runOn_enrichAndStore_eq_ok ready).mp called
        cases named : result.authorNames with
        | none =>
            rw [enrich_of_nameless named] at enriched
            cases enriched
        | some names =>
            exact usable (read_named_iff.mp ⟨read, Option.isSome_iff_exists.mpr ⟨names, named⟩⟩).1

theorem record_isbn : (hit.record responses).isbn = hit.isbn := by
  unfold SearchHit.record
  split <;> rfl

theorem record_firstPublishYear :
    (hit.record responses).firstPublishYear = hit.firstPublishYear.get? := by
  unfold SearchHit.record
  split <;> rfl

/-- The record has the subjects of the sources, which are fifty at most. -/
theorem record_subjects : (hit.record responses).subjects.take 50 = hit.sourceSubjects responses := by
  have own : hit.subjects.take 50 = hit.subjects := by simp [SearchHit.subjects, List.take_take]
  unfold SearchHit.record SearchHit.sourceSubjects
  cases hit.detail responses with
  | none =>
      simp only [SearchHit.partialRecord, own, Option.elim_none, listOr]
      split <;> simp_all
  | some body =>
      simp only [SearchHit.mergedRecord, Option.elim_some, listOr]
      split
      · rw [List.take_take, min_self]
      · exact own

/-- The record has the authors of the hit. -/
theorem mem_authorCalls_record {call : AuthorCall} (mem : call ∈ hit.authorCalls) :
    (hit.record responses).authorCalls = hit.authorCalls := by
  have named : hit.authorNames ≠ [] := by
    intro none
    simp [SearchHit.authorCalls, SearchHit.partialRecord, WorkRecord.authorCalls, none] at mem
  unfold SearchHit.record
  split
  · rfl
  · simp [SearchHit.authorCalls, SearchHit.mergedRecord, SearchHit.partialRecord,
      WorkRecord.authorCalls, named]

theorem HoldsBook.of_whole {bookId : Uuid} {olWorkKey : String}
    (holds : HoldsBook bookId tenantId olWorkKey c) (whole : cut 50 olWorkKey = olWorkKey) :
    HasBook bookId tenantId olWorkKey c := by
  rcases holds with has | ⟨_, has⟩
  · exact has
  · rwa [whole] at has

theorem HoldsAuthor.of_whole {bookId : Uuid} {olAuthorKey : String}
    (holds : HoldsAuthor bookId tenantId olAuthorKey c)
    (whole : cut 50 olAuthorKey = olAuthorKey) : HasAuthor bookId tenantId olAuthorKey c := by
  rcases holds with has | ⟨_, has⟩
  · exact has
  · rwa [whole] at has

/-- A stored record is complete when its title and its cover are, and its texts are kept. -/
theorem complete_of_stored {title : String} {b : Book} (whole : c.Whole)
    (stored : putRecord refuse tenantId (hit.record responses) draws c = .ok ((), after))
    (row : RowOf tenantId (hit.record responses) draws.bookId title c b)
    (holds : Holds b.id tenantId (hit.record responses) draws after)
    (titled : (hit.record responses).title = some title)
    (kept : TextsKept tenantId hit responses draws c)
    (titleHolds : TitleHolds tenantId hit responses c)
    (coverHolds : CoverHolds tenantId hit responses c) :
    Complete tenantId hit responses draws c after b := by
  obtain ⟨sameTitle, isbn, year, _⟩ := row.columns
  obtain ⟨_, same, sources, noPlaceholder⟩ := titleHolds_iff.mp titleHolds
  obtain rfl := Option.some.inj (titled.symm.trans same)
  constructor
  case title =>
    intro source has
    rw [sameTitle, sources source has, kept.title source has]
  case noPlaceholder =>
    intro missing real
    rcases source_of_titled titled with has | ⟨_, rfl⟩ | rfl
    · cases missing.symm.trans has
    · rw [sameTitle, cut_empty]
      decide
    · exact absurd rfl (noPlaceholder missing real)
  case cover => exact (coverHolds_iff whole row).mp coverHolds
  case subjects =>
    intro subject mem
    rcases holds.subjects subject (record_subjects ▸ mem) with has | has
    · exact has
    · rwa [kept.subjects subject mem] at has
  case isbn =>
    intro own has
    rw [isbn own (record_isbn ▸ has), kept.isbn own has]
  case year => exact fun own has => year own (record_firstPublishYear ▸ has)
  case authors =>
    intro call mem
    have sameCalls := @mem_authorCalls_record hit responses call mem
    obtain ⟨a, isAuthor, tenant, key, link⟩ :=
      (holds.authors call (sameCalls ▸ mem)).of_whole (kept.authorKeys call mem)
    refine ⟨a, isAuthor, tenant, key, link, ?_⟩
    rcases authors_of_stored whole (sameCalls ▸ kept.authorKeys) stored a isAuthor with
      old | ⟨i, first, text, introduces, sameKey, named, name⟩
    · exact .inl old
    · obtain ⟨other, isOther, otherKey, otherName⟩ :=
        kept.authorNames i first (sameCalls ▸ introduces)
      refine .inr ⟨other, isOther, otherKey.trans sameKey.symm, ?_⟩
      rw [otherName, named, name, Option.map_some]

/-- The texts of a complete book are as the sources have them. -/
theorem textsKept_of_complete {title : String} {b : Book} (whole : c.Whole)
    (stored : putRecord refuse tenantId (hit.record responses) draws c = .ok ((), after))
    (found : findBook tenantId hit.workKey after = some b)
    (row : RowOf tenantId (hit.record responses) draws.bookId title c b)
    (complete : Complete tenantId hit responses draws c after b) :
    TextsKept tenantId hit responses draws c := by
  have wholeAfter : after.Whole := putRecord_keeps Catalog.Whole.send whole stored
  obtain ⟨sameTitle, isbn, _, _⟩ := row.columns
  have keys : ∀ call ∈ hit.authorCalls,
      cut 50 (call.olAuthorKey draws) = call.olAuthorKey draws := by
    intro call mem
    obtain ⟨a, isAuthor, _, key, _⟩ := complete.authors call mem
    rw [← key]
    exact (wholeAfter.authors a isAuthor).olAuthorKey
  constructor
  case workKey =>
    obtain ⟨mem, _, key⟩ := findBook_eq_some.mp found
    rw [← key]
    exact (wholeAfter.books b mem).olWorkKey
  case title =>
    intro source has
    rw [← complete.title source has, sameTitle, cut_cut]
  case isbn =>
    intro own has
    exact Option.some.inj ((isbn own (record_isbn ▸ has)).symm.trans (complete.isbn own has))
  case subjects =>
    intro subject mem
    exact wholeAfter.subjects _ (complete.subjects subject mem)
  case authorKeys => exact keys
  case authorNames =>
    intro i call introduces
    have mem := List.mem_of_getElem? introduces.isCall
    have sameCalls := @mem_authorCalls_record hit responses call mem
    obtain ⟨a, isAuthor, tenant, key, _, known⟩ := complete.authors call mem
    rcases known with old | ⟨other, isOther, otherKey, named⟩
    · exact absurd ⟨a, old, tenant, key⟩ introduces.new
    · rcases authors_of_stored whole (sameCalls ▸ keys) stored a isAuthor with
        old | ⟨j, first, text, also, sameKey, isText, name⟩
      · exact absurd ⟨a, old, tenant, key⟩ introduces.new
      · rw [sameCalls] at also
        obtain rfl := introduces.unique also (key.symm.trans sameKey)
        refine ⟨other, isOther, otherKey.trans key, ?_⟩
        rw [named, isText, name, Option.map_some]

/-- For every hit, every response and every catalog: the hit is stored completely exactly
when it can be. -/
theorem completes_iff (ready : Ready base db s) (whole : db.catalog.Whole)
    (hit : SearchHit) (responses : Responses) :
    Completes refuse tenantId hit responses draws db.catalog s ↔
      Completable refuse tenantId hit responses draws db.catalog := by
  constructor
  · rintro ⟨t, b, ran, found, complete⟩
    obtain ⟨readable, answered, after, stored, rfl⟩ := (runOn_storeHit_eq_ok ready).mp ran
    obtain ⟨row, title, titled, _, rowOf, _, unique⟩ := row_of_stored whole stored
    obtain rfl : b = row := unique b (record_workKey ▸ found)
    obtain ⟨accepted, _, named⟩ := (stored_iff whole).mp ⟨after, stored⟩
    have sameTitle := rowOf.columns.1
    constructor
    case accepted => exact accepted
    case kept => exact textsKept_of_complete whole stored found rowOf complete
    case readable => exact readable
    case answered => exact answered
    case references => exact callsNamed_record_iff.mp named
    case title =>
      refine titleHolds_iff.mpr ⟨title, titled, fun source has => ?_, fun missing real => ?_⟩
      · have stored := sameTitle.symm.trans (complete.title source has)
        rcases source_of_titled titled with also | ⟨missing, _⟩ | rfl
        · exact Option.some.inj (also.symm.trans has)
        · cases missing.symm.trans has
        · exact (cut_of_length_le (by decide)).symm.trans stored
      · rintro rfl
        exact complete.noPlaceholder missing real (sameTitle.trans (cut_of_length_le (by decide)))
    case cover => exact (coverHolds_iff whole rowOf).mpr complete.cover
  · intro completable
    obtain ⟨title, titled, _⟩ := titleHolds_iff.mp completable.title
    obtain ⟨after, stored⟩ := (stored_iff whole).mpr ⟨completable.accepted,
      Option.isSome_iff_exists.mpr ⟨title, titled⟩, callsNamed_record_iff.mpr completable.references⟩
    obtain ⟨b, rowTitle, rowTitled, _, row, holds, unique⟩ := row_of_stored whole stored
    rw [record_workKey] at unique
    have found : findBook tenantId hit.workKey after = some b := by
      obtain ⟨other, found, _⟩ := hasBook_iff_find.mp
        (holds.book.of_whole (record_workKey ▸ completable.kept.workKey))
      rw [record_workKey] at found
      exact unique other found ▸ found
    refine ⟨_, b, (runOn_storeHit_eq_ok ready).mpr
      ⟨completable.readable, completable.answered, after, stored, rfl⟩, found, ?_⟩
    exact complete_of_stored whole stored row holds rowTitled completable.kept completable.title
      completable.cover

/-- A document without a cover and subjects. -/
def sparseDocument (title : OpenLibrary.Field String) : SearchHit :=
  .document
    { key := .value "/works/OL59863W"
      title
      authorName := .value ["Ursula K. Le Guin"]
      authorKey := .value ["OL31353A"]
      firstPublishYear := .value 1974
      subject := .absent
      coverI := .absent
      isbn := .absent }

/-- The work the document is about. -/
def dispossessed : Responses where
  work := .ok
    { title := .value "The Dispossessed"
      authors := .absent
      firstPublishDate := .absent
      covers := .value [6979861]
      subjects := .value ["utopias"]
      description := .absent }
  author _ := .error (.openLibraryError "")

def someDraws : Draws := ⟨10, fun i => i + 11, fun _ => "0123abcd"⟩

/-- The cover and the subjects come from the work. -/
theorem sparse_document_completes :
    Completes Refusal.never 1 (sparseDocument (.value "The Dispossessed: A Novel")) dispossessed
      someDraws Catalog.empty (.opened .empty) := by
  refine (completes_iff (ready_clean .empty .empty) Catalog.whole_empty _ _).mpr
    ⟨?_, ?_, ?_, ?_, nofun, ?_, nofun⟩
  · intro e failed
    have stored : (putRecord Refusal.never 1
        ((sparseDocument (.value "The Dispossessed: A Novel")).record dispossessed) someDraws
        Catalog.empty).isOk = true := by decide +kernel
    rw [show putRecord Refusal.never 1 _ someDraws Catalog.empty = .error e from failed] at stored
    cases stored
  · have authorCalls : (sparseDocument (.value "The Dispossessed: A Novel")).authorCalls =
        [⟨0, some "OL31353A", some "Ursula K. Le Guin"⟩] := rfl
    constructor
    case workKey => exact cut_of_length_le (by decide)
    case title =>
      intro title source
      obtain rfl := Option.some.inj (source : some "The Dispossessed: A Novel" = some title)
      exact cut_of_length_le (by decide)
    case isbn => nofun
    case subjects =>
      intro subject mem
      obtain rfl := List.mem_singleton.mp (mem : subject ∈ ["utopias"])
      exact cut_of_length_le (by decide)
    case authorKeys =>
      intro call mem
      obtain rfl := List.mem_singleton.mp (authorCalls ▸ mem)
      exact cut_of_length_le (by decide)
    case authorNames =>
      intro i call introduces
      have mem := List.mem_of_getElem? introduces.isCall
      refine ⟨call, mem, rfl, ?_⟩
      obtain rfl := List.mem_singleton.mp (authorCalls ▸ mem)
      exact congrArg some (cut_of_length_le (by decide)).symm
  · exact ⟨nofun, rfl, rfl, nofun⟩
  · refine ⟨fun _ => trivial, fun body found => ?_, nofun⟩
    obtain rfl := Option.some.inj found
    exact ⟨nofun, nofun, nofun⟩
  · exact .inl (by decide)

/-- The book as it was stored before. -/
def storedBefore : Database :=
  { Database.empty with
    catalog := { Catalog.empty with
      books := ⟨[⟨1, 1, "OL59863W", none, "The Dispossessed", none, none, none, none⟩],
        List.pairwise_singleton _ _⟩ } }

/-- The client's placeholder for a missing title hides the work's title and replaces the
stored one. -/
theorem placeholder_replaces_title :
    ¬ Completes Refusal.never 1 (sparseDocument .absent) dispossessed someDraws storedBefore.catalog
      (.opened storedBefore) := by
  have replaced : (SessionM.runOn
      (storeHit Refusal.never 1 (sparseDocument .absent) dispossessed someDraws)
      (.opened storedBefore)).2.tx.catalog.books.rows.map Book.title = ["Unknown"] := by
    decide +kernel
  rintro ⟨t, b, ran, found, complete⟩
  rw [ran] at replaced
  have placeholder : b.title ∈ ["Unknown"] :=
    replaced ▸ List.mem_map_of_mem (findBook_eq_some.mp found).1
  rw [complete.title "The Dispossessed" rfl] at placeholder
  exact absurd placeholder (by decide)

end TenantLibrary.Ingestion
