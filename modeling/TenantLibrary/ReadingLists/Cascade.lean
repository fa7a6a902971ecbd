import TenantLibrary.Ingestion.Enrichment
import TenantLibrary.ReadingLists.Completion

/-!
The resolution cascade.

A reference is looked up by its ISBN, then by a work key, then on Open Library. The key is
the one submitted or, when there is none, the one Open Library has for the ISBN (`goesOn`).
`cascade` states the outcome as a function of the catalog and the client; what it means is
`Cascades`. `_resolve_book` computes it when the client returns results or raises
`OpenLibraryError` and no two books share the ISBN, unless the database refuses an identifier
or the work has no title (`Answerable`).
-/

namespace TenantLibrary.ReadingLists

open TenantLibrary.Lib TenantLibrary.OpenLibrary TenantLibrary.Store TenantLibrary.Ingestion

/-! ### The client -/

/-- The client returns what its methods declare or raises `OpenLibraryError`. -/
structure ReferenceClient.Limited (client : ReferenceClient) : Prop where
  resolveIsbn : ∀ isbn, (∃ workKey, client.resolveIsbn isbn = .ok workKey) ∨
    ∃ message, client.resolveIsbn isbn = .error (.openLibraryError message)
  getWork : ∀ workKey,
    (∃ workDetail, client.getWork workKey = .ok workDetail) ∨
      ∃ message, client.getWork workKey = .error (.openLibraryError message)

/-- The answers to the requests of the client, with their bodies decoded. -/
structure ReferenceResponses where
  isbn : String → Except Failure IsbnBody
  work : Option String → Except Failure WorkBody

/-- The client whose requests get these answers. -/
def ReferenceResponses.client (responses : ReferenceResponses) : ReferenceClient where
  resolveIsbn isbn := resolveIsbn (responses.isbn isbn)
  getWork workKey := responses.work workKey >>= getWork (workKey.getD "None")

/-- A request fails with `OpenLibraryError`, or its body has no `null` in a field that is
used without a check. -/
structure ReferenceResponses.Documented (responses : ReferenceResponses) : Prop where
  isbn : ∀ isbn, (∃ message, responses.isbn isbn = .error (.openLibraryError message)) ∨
    ∃ data, responses.isbn isbn = .ok data ∧
      ∀ works, data.works = .value works → ∀ work ∈ works, work.key ≠ .null
  work : ∀ workKey, (∃ message, responses.work workKey = .error (.openLibraryError message)) ∨
    ∃ data, responses.work workKey = .ok data ∧ data.Readable

/-- A documented edition is read. -/
theorem resolveIsbn_ok {data : IsbnBody}
    (keyed : ∀ works, data.works = .value works → ∀ work ∈ works, work.key ≠ .null) :
    ∃ workKey, resolveIsbn (.ok data) = .ok workKey := by
  obtain ⟨works⟩ := data
  match works with
  | .absent => exact ⟨none, rfl⟩
  | .null => exact ⟨none, rfl⟩
  | .value [] => exact ⟨none, rfl⟩
  | .value (work :: _) =>
      obtain ⟨key, named⟩ := (ne_null_iff "").mp (keyed _ rfl work List.mem_cons_self)
      exact ⟨some (stripKey key), by simp only [resolveIsbn, Field.get_value, named]; rfl⟩

theorem ReferenceResponses.Documented.limited {responses : ReferenceResponses}
    (documented : responses.Documented) : responses.client.Limited where
  resolveIsbn isbn := by
    rcases documented.isbn isbn with ⟨message, failed⟩ | ⟨data, answered, keyed⟩
    · exact .inl ⟨none, by simp [client, failed, OpenLibrary.resolveIsbn]⟩
    · obtain ⟨workKey, read⟩ := resolveIsbn_ok keyed
      exact .inl ⟨workKey, by simp [client, answered, read]⟩
  getWork workKey := by
    rcases documented.work workKey with ⟨message, failed⟩ | ⟨data, answered, readable⟩
    · exact .inr ⟨message, by simp only [client, failed]; rfl⟩
    · refine .inl ⟨data.detail (workKey.getD "None"), ?_⟩
      simp only [client, answered]
      exact getWork_eq_ok.mpr ⟨readable, rfl⟩

/-! ### The outcome -/

/-- An identifier as `if` reads it: the empty text is not given. -/
def givenText (text : Option String) : Option String := text.filter (· ≠ "")

/-- The book a look-up by ISBN finds. -/
def isbnBook (c : Catalog) (tenantId : Uuid) (ref : BookReference) : Option Book :=
  (givenText ref.isbn).bind fun isbn => (booksByIsbn c tenantId isbn).head?

/-- The work key Open Library has for an ISBN. -/
def obtained (client : ReferenceClient) (isbn : String) : Option String :=
  match client.resolveIsbn isbn with
  | .ok workKey => givenText workKey
  | .error _ => none

/-- The work key the cascade goes on with when no book has the ISBN. -/
def goesOn (ref : BookReference) (client : ReferenceClient) : Option String :=
  (givenText ref.olWorkKey).or ((givenText ref.isbn).bind (obtained client))

/-- What Open Library decides about a work key. -/
def verdict (ref : BookReference) (client : ReferenceClient) (workKey : String) : Resolution :=
  match client.getWork (some workKey) with
  | .ok workDetail => (some ⟨workKey, workDetail.title.getD "", false⟩, none)
  | .error _ => (none, some ⟨some workKey, ref.isbn, "Work not found on Open Library"⟩)

/-- The outcome of the cascade. -/
def cascade (c : Catalog) (tenantId : Uuid) (ref : BookReference) (client : ReferenceClient) :
    Resolution :=
  match isbnBook c tenantId ref with
  | some book => inCatalog book.olWorkKey book
  | none =>
      match goesOn ref client with
      | none => (none, some ⟨none, ref.isbn, "ISBN not found on Open Library"⟩)
      | some workKey =>
          match findBook tenantId workKey c with
          | some book => inCatalog workKey book
          | none => verdict ref client workKey

/-- The catalog holds a book under the ISBN of the reference. -/
def HasIsbn (c : Catalog) (tenantId : Uuid) (ref : BookReference) (b : Book) : Prop :=
  b ∈ c.books.rows ∧ b.tenantId = tenantId ∧ ∃ isbn, givenText ref.isbn = some isbn ∧ b.isbn = some isbn

/-- The catalog holds a book of the tenant under a work key. -/
def HasKey (c : Catalog) (tenantId : Uuid) (workKey : String) (b : Book) : Prop :=
  b ∈ c.books.rows ∧ b.tenantId = tenantId ∧ b.olWorkKey = workKey

/-- Neither look-up finds the reference. -/
def Missed (c : Catalog) (tenantId : Uuid) (ref : BookReference) (client : ReferenceClient) : Prop :=
  (∀ b, ¬ HasIsbn c tenantId ref b) ∧
    ∀ workKey, goesOn ref client = some workKey → ∀ b, ¬ HasKey c tenantId workKey b

/-- The identifiers looked up are texts without a NUL, and a work found has a title. -/
structure Answerable (c : Catalog) (tenantId : Uuid) (ref : BookReference)
    (client : ReferenceClient) : Prop where
  isbn : ∀ isbn, givenText ref.isbn = some isbn → noNul isbn
  key : (∀ b, ¬ HasIsbn c tenantId ref b) → ∀ workKey, goesOn ref client = some workKey →
    noNul workKey
  title : Missed c tenantId ref client → ∀ workKey workDetail, goesOn ref client = some workKey →
    client.getWork (some workKey) = .ok workDetail → workDetail.title.isSome

/-! ### `_resolve_book` computes it -/

section Computes

variable {c : Catalog} {tenantId : Uuid} {ref : BookReference} {client : ReferenceClient} {b : Book}

theorem givenText_eq_some {text : Option String} {value : String} :
    givenText text = some value ↔ text = some value ∧ value ≠ "" := by
  simp [givenText, Option.filter_eq_some_iff]

theorem givenText_eq_none {text : Option String} : givenText text = none ↔ truthy text = false := by
  cases text <;> simp [givenText, truthy, Option.filter]

theorem givenText_of_truthy {text : Option String} (keyed : truthy text) :
    ∃ value, text = some value ∧ givenText text = some value := by
  obtain ⟨value, rfl, nonempty⟩ := (Option.any_eq_true _ _).mp keyed
  exact ⟨value, rfl, givenText_eq_some.mpr ⟨rfl, by simpa using nonempty⟩⟩

theorem truthy_of_ne {value : String} (nonempty : value ≠ "") : truthy (some value) := by
  simpa [truthy] using nonempty

/-- What the client answers while the reference is resolved. -/
def answersFor (ref : BookReference) (client : ReferenceClient) : ReferenceAnswers :=
  ⟨client.resolveIsbn (ref.isbn.getD ""), client.getWork (goesOn ref client)⟩

theorem hasIsbn_of_isbnBook (found : isbnBook c tenantId ref = some b) : HasIsbn c tenantId ref b := by
  obtain ⟨isbn, named, first⟩ := Option.bind_eq_some_iff.mp found
  obtain ⟨mem, selected⟩ := List.mem_filter.mp (List.mem_of_head? first)
  simp only [Bool.and_eq_true, decide_eq_true_eq] at selected
  exact ⟨mem, selected.1, isbn, named, selected.2⟩

/-- The book under the ISBN is the one the look-up finds. -/
theorem HasIsbn.isbnBook (unshared : Unshared c tenantId ref) (has : HasIsbn c tenantId ref b) :
    isbnBook c tenantId ref = some b := by
  obtain ⟨mem, tenant, isbn, named, held⟩ := has
  obtain ⟨same, nonempty⟩ := givenText_eq_some.mp named
  have listed : b ∈ booksByIsbn c tenantId isbn := by
    simp [booksByIsbn, mem, tenant, held]
  have atMostOne := unshared isbn same nonempty
  rw [ReadingLists.isbnBook, named, Option.bind_some]
  match booksByIsbn c tenantId isbn, listed, atMostOne with
  | [book], listed, _ => rw [List.mem_singleton.mp listed]; rfl

theorem findBook_isNone {workKey : String} :
    findBook tenantId workKey c = none ↔ ∀ b, ¬ HasKey c tenantId workKey b := by
  simp [Option.eq_none_iff_forall_ne_some, findBook_eq_some, HasKey]

theorem isbnBook_isNone (unshared : Unshared c tenantId ref) :
    isbnBook c tenantId ref = none ↔ ∀ b, ¬ HasIsbn c tenantId ref b := by
  rw [Option.eq_none_iff_forall_ne_some]
  exact forall_congr' fun b => not_congr ⟨hasIsbn_of_isbnBook, fun has => has.isbnBook unshared⟩

theorem resolveByKeyWith_eq {workKey isbn : Option String} {answers : ReferenceAnswers}
    (asked : answers.work = client.getWork workKey) :
    resolveByKeyWith tenantId workKey isbn client = resolveByKey tenantId workKey isbn answers := by
  rw [resolveByKeyWith, ← asked]
  rfl

theorem goesOn_of_key (keyed : truthy ref.olWorkKey) : goesOn ref client = ref.olWorkKey := by
  obtain ⟨workKey, same, found⟩ := givenText_of_truthy keyed
  rw [goesOn, found, same]
  rfl

theorem goesOn_of_isbn {isbn : String} (unkeyed : truthy ref.olWorkKey = false)
    (found : givenText ref.isbn = some isbn) : goesOn ref client = obtained client isbn := by
  rw [goesOn, givenText_eq_none.mpr unkeyed, found]
  rfl

/-- The client is asked at most once for the ISBN and once for the work. -/
theorem resolveBookWith_eq : resolveBookWith tenantId ref client =
    resolveBook tenantId ref (answersFor ref client) := by
  have byKey (workKey : Option String) (next : truthy workKey → goesOn ref client = workKey) :
      (if truthy workKey then resolveByKeyWith tenantId workKey ref.isbn client
        else return (none, some ⟨none, ref.isbn, "ISBN not found on Open Library"⟩)) =
      (if truthy workKey then resolveByKey tenantId workKey ref.isbn (answersFor ref client)
        else return (none, some ⟨none, ref.isbn, "ISBN not found on Open Library"⟩)) := by
    split
    case isTrue keyed => exact resolveByKeyWith_eq (by rw [answersFor, next keyed])
    case isFalse => rfl
  unfold resolveBookWith resolveBook
  cases found : ref.isbn.filter (· ≠ "") with
  | none =>
      have keyed := keyed_of_filter_isbn found
      exact resolveByKeyWith_eq (by rw [answersFor, goesOn_of_key keyed])
  | some isbn =>
      refine congrArg (findByIsbn tenantId isbn >>= ·) (funext fun book => ?_)
      cases book with
      | some book => rfl
      | none =>
          dsimp only
          by_cases keyed : truthy ref.olWorkKey
          · simp only [if_pos keyed]
            exact resolveByKeyWith_eq (by rw [answersFor, goesOn_of_key keyed])
          · simp only [if_neg keyed]
            have next : goesOn ref client = obtained client isbn :=
              goesOn_of_isbn (by simpa using keyed) found
            have asked : (answersFor ref client).isbn = client.resolveIsbn isbn := by
              rw [answersFor, (filter_isbn_eq_some.mp found).1]
              rfl
            rw [asked]
            cases answered : client.resolveIsbn isbn with
            | error failure =>
                cases failure with
                | openLibraryError _ => exact byKey ref.olWorkKey fun other => absurd other keyed
                | attributeError => rfl
                | typeError => rfl
                | other _ => rfl
            | ok workKey =>
                apply byKey workKey
                intro known
                obtain ⟨value, same, nonempty⟩ := givenText_of_truthy known
                rw [next, obtained, answered, same, ← same]
                exact nonempty.trans same.symm

/-- What becomes of a reference whose ISBN no book has. -/
def goingOn (c : Catalog) (tenantId : Uuid) (ref : BookReference) (client : ReferenceClient) :
    Option Resolution :=
  match goesOn ref client with
  | none => some (none, some ⟨none, ref.isbn, "ISBN not found on Open Library"⟩)
  | some workKey => resolveByKeyIn c tenantId (some workKey) ref.isbn (answersFor ref client)

/-- The key the cascade goes on with is not empty. -/
theorem truthy_goesOn {workKey : String} (next : goesOn ref client = some workKey) :
    truthy (some workKey) := by
  rcases Option.or_eq_some_iff.mp next with given | ⟨_, given⟩
  · exact truthy_of_ne (givenText_eq_some.mp given).2
  · obtain ⟨isbn, _, given⟩ := Option.bind_eq_some_iff.mp given
    unfold obtained at given
    split at given
    · exact truthy_of_ne (givenText_eq_some.mp given).2
    · cases given

theorem goingOn_of_key {workKey : Option String} (keyed : truthy workKey)
    (next : goesOn ref client = workKey) :
    resolveByKeyIn c tenantId workKey ref.isbn (answersFor ref client) =
      goingOn c tenantId ref client := by
  obtain ⟨value, rfl, _⟩ := givenText_of_truthy keyed
  rw [goingOn, next]

/-- The ISBN is looked up, and then the key the cascade goes on with. -/
theorem resolveIn_answersFor (limited : client.Limited) :
    resolveIn c tenantId ref (answersFor ref client) =
      match givenText ref.isbn with
      | none => goingOn c tenantId ref client
      | some isbn => lookedUp isbn (scalarOne (booksByIsbn c tenantId isbn)) >>= fun
          | some book => some (inCatalog book.olWorkKey book)
          | none => goingOn c tenantId ref client := by
  unfold resolveIn givenText
  cases found : ref.isbn.filter (· ≠ "") with
  | none =>
      have keyed := keyed_of_filter_isbn found
      exact goingOn_of_key keyed (goesOn_of_key keyed)
  | some isbn =>
      have same : (answersFor ref client).isbn = client.resolveIsbn isbn := by
        rw [answersFor, (filter_isbn_eq_some.mp found).1]
        rfl
      refine congrArg (lookedUp isbn _ >>= ·) (funext fun looked => ?_)
      cases looked with
      | some book => rfl
      | none =>
          dsimp only
          by_cases keyed : truthy ref.olWorkKey
          · rw [if_pos keyed]
            exact goingOn_of_key keyed (goesOn_of_key keyed)
          · have unkeyed : truthy ref.olWorkKey = false := by simpa using keyed
            have next : goesOn ref client = obtained client isbn := goesOn_of_isbn unkeyed found
            rw [if_neg keyed, isbnKey, same]
            rcases limited.resolveIsbn isbn with ⟨workKey, returned⟩ | ⟨message, raised⟩
            · have next : goesOn ref client = givenText workKey := by
                rw [next, obtained, returned]
              rw [returned]
              dsimp only [Option.bind_eq_bind, Option.bind_some]
              by_cases known : truthy workKey
              · obtain ⟨value, rfl, nonempty⟩ := givenText_of_truthy known
                rw [if_pos known]
                exact goingOn_of_key known (next.trans nonempty)
              · rw [if_neg known, goingOn, next, givenText_eq_none.mpr (by simpa using known)]
            · have next : goesOn ref client = none := by
                rw [next, obtained, raised]
              rw [raised]
              dsimp only [Option.bind_eq_bind, Option.bind_some]
              rw [if_neg keyed, goingOn, next]

/-- Open Library decides about a key the catalog does not have. -/
theorem verifiedBy_eq (limited : client.Limited) {workKey : String}
    (next : goesOn ref client = some workKey)
    (titled : ∀ workDetail, client.getWork (some workKey) = .ok workDetail →
      workDetail.title.isSome) :
    verifiedBy (answersFor ref client) (some workKey) ref.isbn = some (verdict ref client workKey) := by
  rw [verifiedBy, verdict, answersFor, next]
  rcases limited.getWork (some workKey) with ⟨workDetail, returned⟩ | ⟨message, raised⟩
  · obtain ⟨title, named⟩ := Option.isSome_iff_exists.mp (titled workDetail returned)
    simp [returned, named]
  · simp [raised]

theorem goingOn_eq (limited : client.Limited) (answerable : Answerable c tenantId ref client)
    (absent : isbnBook c tenantId ref = none) (missed : ∀ b, ¬ HasIsbn c tenantId ref b) :
    goingOn c tenantId ref client = some (cascade c tenantId ref client) := by
  rw [goingOn, cascade, absent]
  dsimp only
  cases next : goesOn ref client with
  | none => rfl
  | some workKey =>
      have text := answerable.key missed workKey next
      dsimp only
      rw [resolveByKeyIn, if_pos (truthy_goesOn next), Option.getD_some, lookedUp, if_pos text]
      dsimp only [Option.bind_eq_bind, Option.bind_some]
      cases found : findBook tenantId workKey c with
      | some book => rfl
      | none =>
          apply verifiedBy_eq limited next
          intro workDetail returned
          refine answerable.title ⟨missed, fun other next' => ?_⟩ workKey workDetail next returned
          obtain rfl := Option.some.inj (next.symm.trans next')
          exact findBook_isNone.mp found

/-- Without two books under the ISBN the look-up finds the book that has it. -/
theorem scalarOne_booksByIsbn (unshared : Unshared c tenantId ref) {isbn : String}
    (found : givenText ref.isbn = some isbn) :
    scalarOne (booksByIsbn c tenantId isbn) = some (isbnBook c tenantId ref) := by
  obtain ⟨same, nonempty⟩ := givenText_eq_some.mp found
  have atMostOne := unshared isbn same nonempty
  rw [isbnBook, found, Option.bind_some]
  match booksByIsbn c tenantId isbn, atMostOne with
  | [], _ => rfl
  | [_], _ => rfl

theorem resolveIn_eq (limited : client.Limited) (unshared : Unshared c tenantId ref)
    (answerable : Answerable c tenantId ref client) :
    resolveIn c tenantId ref (answersFor ref client) = some (cascade c tenantId ref client) := by
  have onward (absent : isbnBook c tenantId ref = none) :=
    goingOn_eq limited answerable absent ((isbnBook_isNone unshared).mp absent)
  rw [resolveIn_answersFor limited]
  cases found : givenText ref.isbn with
  | none =>
      refine onward ?_
      rw [isbnBook, found]
      rfl
  | some isbn =>
      dsimp only
      rw [lookedUp, if_pos (answerable.isbn isbn found), scalarOne_booksByIsbn unshared found,
        Option.bind_eq_bind, Option.bind_some]
      cases looked : isbnBook c tenantId ref with
      | some book => rw [cascade, looked]
      | none => exact onward looked

/-- `_resolve_book` returns the outcome of the cascade. -/
theorem runOn_resolveBookWith {db : Database} (limited : client.Limited)
    (unshared : Unshared db.catalog tenantId ref)
    (answerable : Answerable db.catalog tenantId ref client) :
    ((resolveBookWith tenantId ref client).runOn (.opened db)).1 =
      .ok (cascade db.catalog tenantId ref client) := by
  rw [resolveBookWith_eq]
  exact (reads_resolveBook.returns_iff db _).mpr (resolveIn_eq limited unshared answerable)

/-! ### What a reference that is decided says -/

variable {resolution : Resolution}

theorem goingOn_of_resolveIn (limited : client.Limited) (missed : ∀ b, ¬ HasIsbn c tenantId ref b)
    (resolved : resolveIn c tenantId ref (answersFor ref client) = some resolution) :
    goingOn c tenantId ref client = some resolution := by
  rw [resolveIn_answersFor limited] at resolved
  cases found : givenText ref.isbn with
  | none => rwa [found] at resolved
  | some isbn =>
      rw [found] at resolved
      obtain ⟨looked, found', resolved⟩ := Option.bind_eq_some_iff.mp resolved
      cases looked with
      | none => exact resolved
      | some book =>
          obtain ⟨mem, tenant, held⟩ := selected_of_scalarOne (lookedUp_eq_some.mp found').2
          exact absurd ⟨mem, tenant, isbn, found, held⟩ (missed book)

/-- A reference is decided only when what it needs is answered. -/
theorem answerable_of_resolveIn (limited : client.Limited)
    (resolved : resolveIn c tenantId ref (answersFor ref client) = some resolution) :
    Answerable c tenantId ref client where
  isbn := by
    intro isbn found
    rw [resolveIn_answersFor limited, found] at resolved
    obtain ⟨_, looked, _⟩ := Option.bind_eq_some_iff.mp resolved
    exact (lookedUp_eq_some.mp looked).1
  key := by
    intro missed workKey next
    have onward := goingOn_of_resolveIn limited missed resolved
    rw [goingOn, next] at onward
    obtain ⟨_, looked, _⟩ := Option.bind_eq_some_iff.mp onward
    rw [if_pos (truthy_goesOn next)] at looked
    exact (lookedUp_eq_some.mp looked).1
  title := by
    rintro ⟨missed, unkeyed⟩ workKey workDetail next returned
    have onward := goingOn_of_resolveIn limited missed resolved
    rw [goingOn, next] at onward
    rcases resolveByKeyIn_cases onward with ⟨book, _, found, _⟩ | ⟨_, verified⟩
    · exact absurd found (by simp [findBook_isNone.mpr (unkeyed workKey next)])
    · rw [verifiedBy, answersFor, next, returned] at verified
      obtain ⟨_, _, titled⟩ := Option.bind_eq_some_iff.mp verified
      obtain ⟨title, named, _⟩ := Option.bind_eq_some_iff.mp titled
      exact Option.isSome_iff_exists.mpr ⟨title, named⟩

end Computes

/-! ### What the outcome means -/

/-- The contract of the cascade, for what `_resolve_book` does with each client. -/
structure Cascades (c : Catalog) (tenantId : Uuid) (ref : BookReference)
    (resolves : ReferenceClient → Except (SessionError DbError Failure) Resolution)
    (client : ReferenceClient) : Prop where
  /-- exactly one of resolved and unresolved is returned -/
  decides : ∃ resolution, resolves client = .ok resolution ∧
    (resolution.1.isSome ↔ resolution.2 = none)
  /-- `found_in_catalog` tells whether the work key is one of the catalog's -/
  flags : ∀ book unresolved, resolves client = .ok (some book, unresolved) →
    (book.foundInCatalog ↔ ∃ b, HasKey c tenantId book.olWorkKey b)
  titles : ∀ book unresolved, resolves client = .ok (some book, unresolved) →
    ∀ b, HasKey c tenantId book.olWorkKey b → book.title = b.title
  /-- an ISBN of the catalog decides, whatever key was submitted -/
  isbnFirst : ∀ b, HasIsbn c tenantId ref b →
    resolves client = .ok (some ⟨b.olWorkKey, b.title, true⟩, none)
  /-- with the ISBN or the submitted key in the catalog any other client will do -/
  offline : ((∃ b, HasIsbn c tenantId ref b) ∨
      ∃ workKey b, givenText ref.olWorkKey = some workKey ∧ HasKey c tenantId workKey b) →
    ∀ other, resolves other = resolves client
  unresolved_iff : (∃ reason, resolves client = .ok (none, reason)) ↔
    Missed c tenantId ref client ∧ (goesOn ref client = none ∨ ∃ workKey message,
      goesOn ref client = some workKey ∧
        client.getWork (some workKey) = .error (.openLibraryError message))

section Means

variable {c : Catalog} {tenantId : Uuid} {ref : BookReference} {client : ReferenceClient} {b : Book}

theorem HasKey.unique {workKey : String} {other : Book} (has : HasKey c tenantId workKey b)
    (found : HasKey c tenantId workKey other) : other = b :=
  Option.some.inj ((findBook_eq_some.mpr found).symm.trans (findBook_eq_some.mpr has))

/-- What the catalog holds is resolved without an answer of the client. -/
theorem resolveIn_congr (unshared : Unshared c tenantId ref)
    (held : (∃ b, HasIsbn c tenantId ref b) ∨
      ∃ workKey b, givenText ref.olWorkKey = some workKey ∧ HasKey c tenantId workKey b)
    (answers other : ReferenceAnswers) :
    resolveIn c tenantId ref answers = resolveIn c tenantId ref other := by
  have byKey (absent : isbnBook c tenantId ref = none) : truthy ref.olWorkKey ∧
      resolveByKeyIn c tenantId ref.olWorkKey ref.isbn answers =
        resolveByKeyIn c tenantId ref.olWorkKey ref.isbn other := by
    rcases held with ⟨b, has⟩ | ⟨workKey, b, named, has⟩
    · rw [has.isbnBook unshared] at absent
      cases absent
    · obtain ⟨same, nonempty⟩ := givenText_eq_some.mp named
      have keyed := truthy_of_ne nonempty
      rw [same, resolveByKeyIn, resolveByKeyIn, if_pos keyed, Option.getD_some,
        findBook_eq_some.mpr has]
      refine ⟨keyed, ?_⟩
      unfold lookedUp
      split <;> rfl
  unfold resolveIn
  cases found : ref.isbn.filter (· ≠ "") with
  | none =>
      refine (byKey ?_).2
      rw [ReadingLists.isbnBook, givenText, found]
      rfl
  | some isbn =>
      dsimp only
      rw [scalarOne_booksByIsbn unshared found]
      cases looked : ReadingLists.isbnBook c tenantId ref with
      | some book =>
          unfold lookedUp
          split <;> rfl
      | none =>
          obtain ⟨keyed, same⟩ := byKey looked
          rw [if_pos keyed, if_pos keyed, same]

/-- A resolved reference is a book of the catalog, or a work the catalog does not have. -/
theorem cascade_resolved {book : ResolvedBook} {reason : Option UnresolvedBook}
    (resolved : cascade c tenantId ref client = (some book, reason)) :
    (∃ b, HasKey c tenantId book.olWorkKey b ∧ book = ⟨b.olWorkKey, b.title, true⟩) ∨
      ((∀ b, ¬ HasKey c tenantId book.olWorkKey b) ∧ book.foundInCatalog = false) := by
  unfold cascade at resolved
  split at resolved
  case h_1 b found =>
    obtain ⟨mem, tenant, _⟩ := hasIsbn_of_isbnBook found
    obtain rfl := Option.some.inj (congrArg Prod.fst resolved)
    exact .inl ⟨b, ⟨mem, tenant, rfl⟩, rfl⟩
  case h_2 =>
    split at resolved
    case h_1 => cases resolved
    case h_2 workKey next =>
      split at resolved
      case h_1 b found =>
        obtain ⟨mem, tenant, rfl⟩ := findBook_eq_some.mp found
        obtain rfl := Option.some.inj (congrArg Prod.fst resolved)
        exact .inl ⟨b, ⟨mem, tenant, rfl⟩, rfl⟩
      case h_2 absent =>
        unfold verdict at resolved
        split at resolved
        · obtain rfl := Option.some.inj (congrArg Prod.fst resolved)
          exact .inr ⟨findBook_isNone.mp absent, rfl⟩
        · cases resolved

theorem cascade_exclusive :
    (cascade c tenantId ref client).1.isSome ↔ (cascade c tenantId ref client).2 = none := by
  unfold cascade verdict inCatalog
  split
  · simp
  · split
    · simp
    · split
      · simp
      · split <;> simp

theorem cascade_unresolved (limited : client.Limited) (unshared : Unshared c tenantId ref) :
    (cascade c tenantId ref client).1 = none ↔
      Missed c tenantId ref client ∧ (goesOn ref client = none ∨ ∃ workKey message,
        goesOn ref client = some workKey ∧
          client.getWork (some workKey) = .error (.openLibraryError message)) := by
  have byIsbn : ReadingLists.isbnBook c tenantId ref = none ↔ ∀ b, ¬ HasIsbn c tenantId ref b := by
    rw [Option.eq_none_iff_forall_ne_some]
    exact forall_congr' fun b =>
      not_congr ⟨hasIsbn_of_isbnBook, fun has => has.isbnBook unshared⟩
  rw [Missed, ← byIsbn, cascade]
  cases ReadingLists.isbnBook c tenantId ref with
  | some book => simp [inCatalog]
  | none =>
      cases goesOn ref client with
      | none => simp
      | some workKey =>
          simp only [Option.some.injEq, forall_eq', ← findBook_isNone, true_and, reduceCtorEq,
            false_or, exists_and_left, exists_eq_left']
          cases findBook tenantId workKey c with
          | some book => simp [inCatalog]
          | none =>
              rw [verdict]
              rcases limited.getWork (some workKey) with ⟨_, returned⟩ | ⟨message, raised⟩
              · simp [returned]
              · simp [raised]

end Means

/-! ### The contract -/

/-- What `_resolve_book` returns or raises, on a fresh session. -/
def resolves (db : Database) (tenantId : Uuid) (ref : BookReference) (client : ReferenceClient) :
    Except (SessionError DbError Failure) Resolution :=
  ((resolveBookWith tenantId ref client).runOn (.opened db)).1

/-- With the reference answered, `_resolve_book` keeps the contract of the cascade. -/
theorem cascades_of_answerable {db : Database} {tenantId : Uuid} {ref : BookReference}
    {client : ReferenceClient} (limited : client.Limited)
    (unshared : Unshared db.catalog tenantId ref)
    (answerable : Answerable db.catalog tenantId ref client) :
    Cascades db.catalog tenantId ref (resolves db tenantId ref) client := by
  have outcome : resolves db tenantId ref client = .ok (cascade db.catalog tenantId ref client) :=
    runOn_resolveBookWith limited unshared answerable
  refine ⟨⟨_, outcome, cascade_exclusive⟩, fun book reason resolved => ?_,
    fun book reason resolved b has => ?_, fun b has => ?_, fun held other => ?_, ?_⟩
  · rcases cascade_resolved (Except.ok.inj (outcome.symm.trans resolved)) with
      ⟨b, has, rfl⟩ | ⟨none, absent⟩
    · simp only [true_iff]
      exact ⟨b, has⟩
    · simp [none, absent]
  · rcases cascade_resolved (Except.ok.inj (outcome.symm.trans resolved)) with
      ⟨found, held, rfl⟩ | ⟨none, _⟩
    · rw [has.unique held]
    · exact absurd has (none b)
  · rw [outcome, cascade, has.isbnBook unshared]
    rfl
  · rw [outcome]
    have held' := (resolveIn_congr unshared held (answersFor ref other) _).trans
      (resolveIn_eq limited unshared answerable)
    rw [resolves, resolveBookWith_eq]
    exact (reads_resolveBook.returns_iff db _).mpr held'
  · rw [← cascade_unresolved limited unshared, outcome]
    rcases cascade db.catalog tenantId ref client with ⟨_ | book, reason⟩ <;> simp

/-- `_resolve_book` keeps the contract of the cascade exactly when the identifiers looked up
have no NUL and a work found has a title. -/
theorem resolution_cascades_iff {db : Database} {tenantId : Uuid} {ref : BookReference}
    {client : ReferenceClient} (limited : client.Limited)
    (unshared : Unshared db.catalog tenantId ref) :
    Cascades db.catalog tenantId ref (resolves db tenantId ref) client ↔
      Answerable db.catalog tenantId ref client := by
  refine ⟨fun cascades => ?_, cascades_of_answerable limited unshared⟩
  obtain ⟨resolution, decided, _⟩ := cascades.decides
  rw [resolves, resolveBookWith_eq] at decided
  exact answerable_of_resolveIn limited ((reads_resolveBook.returns_iff db resolution).mp decided)

/-- Open Library knows one edition of `OL2W`. -/
def oneEdition : ReferenceResponses where
  isbn _ := .ok ⟨.value [⟨.value "/works/OL2W"⟩]⟩
  work _ := .ok ⟨.value "Two", .absent, .absent, .absent, .absent, .absent⟩

theorem documented_oneEdition : oneEdition.Documented where
  isbn _ := .inr ⟨_, rfl, by simp⟩
  work _ := .inr ⟨_, rfl, by simp, by simp, by simp⟩

/-- With an ISBN the catalog does not have, the work of the edition is found. -/
theorem edition_cascades :
    let db := ingested [printed "OL1W" 10] sampleRequest .empty
    let ref : BookReference := ⟨none, some "9780262033848", .inr (by decide)⟩
    resolves db 1 ref oneEdition.client = .ok (some ⟨"OL2W", "Two", false⟩, none) ∧
      Cascades db.catalog 1 ref (resolves db 1 ref) oneEdition.client := by
  refine ⟨by decide +kernel, (resolution_cascades_iff documented_oneEdition.limited ?_).mpr ?_⟩
  · intro isbn named _
    obtain rfl := Option.some.inj named
    decide +kernel
  · constructor
    · intro isbn given
      obtain ⟨rfl, _⟩ : isbn = "9780262033848" ∧ isbn ≠ "" := by
        simpa [eq_comm] using givenText_eq_some.mp given
      decide
    · intro _ workKey next
      obtain rfl : "OL2W" = workKey := Option.some.inj next
      decide
    · intro _ workKey workDetail _ returned
      obtain rfl := Except.ok.inj returned
      rfl

/-- The ISBN is a NUL. -/
def nulIsbn : BookReference := ⟨none, some "\x00", .inr (by decide)⟩

def onlyKey : BookReference := ⟨some "OL1W", none, .inl (by decide)⟩

/-- Open Library knows the work without a title. -/
def untitledWork : ReferenceResponses where
  isbn _ := .ok ⟨.absent⟩
  work _ := .ok ⟨.null, .absent, .absent, .absent, .absent, .absent⟩

theorem documented_untitledWork : untitledWork.Documented where
  isbn _ := .inr ⟨_, rfl, nofun⟩
  work _ := .inr ⟨_, rfl, by simp, by simp, by simp⟩

/-- The database refuses an ISBN with a NUL, and a work without a title cannot be returned:
either reference is neither resolved nor unresolved. -/
theorem refused_isbn_raises :
    (Unshared Catalog.empty 1 nulIsbn ∧ oneEdition.client.Limited ∧
      resolves .empty 1 nulIsbn oneEdition.client = .error (.database refusedParameter) ∧
      ¬ Cascades Catalog.empty 1 nulIsbn (resolves .empty 1 nulIsbn) oneEdition.client) ∧
    (Unshared Catalog.empty 1 onlyKey ∧ untitledWork.client.Limited ∧
      resolves .empty 1 onlyKey untitledWork.client = .error (.raised (.other "validation error")) ∧
      ¬ Cascades Catalog.empty 1 onlyKey (resolves .empty 1 onlyKey) untitledWork.client) := by
  have shared (ref : BookReference) : Unshared Catalog.empty 1 ref := fun _ _ _ => Nat.zero_le 1
  have raises {ref : BookReference} {client : ReferenceClient}
      {failure : SessionError DbError Failure}
      (raised : resolves .empty 1 ref client = .error failure) :
      ¬ Cascades Catalog.empty 1 ref (resolves .empty 1 ref) client := by
    intro cascades
    obtain ⟨resolution, decided, _⟩ := cascades.decides
    cases raised.symm.trans decided
  have refused : resolves .empty 1 nulIsbn oneEdition.client =
      .error (.database refusedParameter) := by decide +kernel
  have untitled : resolves .empty 1 onlyKey untitledWork.client =
      .error (.raised (.other "validation error")) := by decide +kernel
  exact ⟨⟨shared _, documented_oneEdition.limited, refused, raises refused⟩,
    ⟨shared _, documented_untitledWork.limited, untitled, raises untitled⟩⟩

end TenantLibrary.ReadingLists
