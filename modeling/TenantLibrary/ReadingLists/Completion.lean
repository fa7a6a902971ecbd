import TenantLibrary.Ingestion.Reingestion
import TenantLibrary.ReadingLists.LastWrite
import TenantLibrary.Store.Parameters

/-!
When a submission completes.

Every write of a submission is accepted when the texts fit their columns, and every
reference is resolved or unresolved when Open Library answers or raises
`OpenLibraryError`. What remains is the look-up by ISBN: `submission_completes_iff` says
that a submission returns its response exactly when no ISBN it names is shared by two
books of the tenant. Nothing keeps an ISBN unique, and `shared_isbn_raises` ingests two
works under one.
-/

namespace TenantLibrary.ReadingLists

open TenantLibrary.Lib TenantLibrary.OpenLibrary TenantLibrary.Store TenantLibrary.Ingestion

/-! ### The calls of the client -/

/-- The client, while one reference is resolved. -/
structure ReferenceClient where
  resolveIsbn : String → Except Failure (Option String)
  getWork : Option String → Except Failure WorkDetail

/-- The end of `_resolve_book`, with its call of `get_work`. -/
def resolveByKeyWith (tenantId : Uuid) (workKey isbn : Option String) (client : ReferenceClient) :
    IngestM Resolution := do
  let catalogBook ←
    if truthy workKey then findByWorkKey tenantId (workKey.getD "") else pure none
  match catalogBook with
  | some book => return inCatalog (workKey.getD "") book
  | none =>
      match client.getWork workKey with
      | .error (.openLibraryError _) =>
          return (none, some ⟨workKey, isbn, "Work not found on Open Library"⟩)
      | .error failure => throw (.raised failure)
      | .ok workDetail =>
          let olWorkKey ← liftAnswer ((Failure.other "validation error").onNone workKey)
          let title ← liftAnswer ((Failure.other "validation error").onNone workDetail.title)
          return (some ⟨olWorkKey, title, false⟩, none)

/-- `_resolve_book`, with its calls of the client. -/
def resolveBookWith (tenantId : Uuid) (ref : BookReference) (client : ReferenceClient) :
    IngestM Resolution := do
  match ref.isbn.filter (· ≠ "") with
  | none => resolveByKeyWith tenantId ref.olWorkKey ref.isbn client
  | some isbn =>
      match ← findByIsbn tenantId isbn with
      | some book => return inCatalog book.olWorkKey book
      | none =>
          if truthy ref.olWorkKey then
            resolveByKeyWith tenantId ref.olWorkKey ref.isbn client
          else
            let workKey ←
              match client.resolveIsbn isbn with
              | .error (.openLibraryError _) => pure ref.olWorkKey
              | .error failure => throw (.raised failure)
              | .ok workKey => pure workKey
            if truthy workKey then resolveByKeyWith tenantId workKey ref.isbn client
            else return (none, some ⟨none, ref.isbn, "ISBN not found on Open Library"⟩)

/-- The client that gives these answers. -/
def ReferenceAnswers.client (answers : ReferenceAnswers) : ReferenceClient :=
  ⟨fun _ => answers.isbn, fun _ => answers.work⟩

theorem resolveBook_eq (tenantId : Uuid) (ref : BookReference) (answers : ReferenceAnswers) :
    resolveBook tenantId ref answers = resolveBookWith tenantId ref answers.client :=
  rfl

/-- The client, asserting that `get_work` is asked for a work. -/
def ReferenceClient.asserting (client : ReferenceClient) : ReferenceClient where
  resolveIsbn := client.resolveIsbn
  getWork workKey :=
    if truthy workKey then client.getWork workKey else .error (.other "assertion failed")

theorem resolveByKeyWith_asserting {tenantId : Uuid} {workKey isbn : Option String}
    {client : ReferenceClient} (asked : truthy workKey) :
    resolveByKeyWith tenantId workKey isbn client.asserting =
      resolveByKeyWith tenantId workKey isbn client := by
  simp only [resolveByKeyWith, ReferenceClient.asserting, if_pos asked]

/-- A reference without an ISBN has a work key. -/
theorem keyed_of_filter_isbn {ref : BookReference} (absent : ref.isbn.filter (· ≠ "") = none) :
    truthy ref.olWorkKey := by
  apply ref.identified.resolve_right
  intro given
  obtain ⟨isbn, found, nonempty⟩ := (Option.any_eq_true _ _).mp given
  rw [filter_isbn_eq_some.mpr ⟨found, by simpa using nonempty⟩] at absent
  cases absent

/-- The assertion never fails. -/
theorem resolveBookWith_asserting (tenantId : Uuid) (ref : BookReference)
    (client : ReferenceClient) :
    resolveBookWith tenantId ref client.asserting = resolveBookWith tenantId ref client := by
  unfold resolveBookWith
  cases given : ref.isbn.filter (· ≠ "") with
  | none => exact resolveByKeyWith_asserting (keyed_of_filter_isbn given)
  | some isbn =>
      refine congrArg (findByIsbn tenantId isbn >>= ·) (funext fun found => ?_)
      cases found with
      | some book => rfl
      | none =>
          have byIsbnKey (workKey : Option String) :
              (if truthy workKey then resolveByKeyWith tenantId workKey ref.isbn client.asserting
                else return (none, some ⟨none, ref.isbn, "ISBN not found on Open Library"⟩)) =
              (if truthy workKey then resolveByKeyWith tenantId workKey ref.isbn client
                else return (none, some ⟨none, ref.isbn, "ISBN not found on Open Library"⟩)) := by
            split
            · exact resolveByKeyWith_asserting ‹_›
            · rfl
          dsimp only
          by_cases keyed : truthy ref.olWorkKey
          · simp only [if_pos keyed]
            exact resolveByKeyWith_asserting keyed
          · simp only [if_neg keyed, ReferenceClient.asserting]
            cases client.resolveIsbn isbn with
            | ok workKey => exact congrArg (pure workKey >>= ·) (funext byIsbnKey)
            | error failure =>
                cases failure with
                | openLibraryError _ => exact congrArg (pure ref.olWorkKey >>= ·) (funext byIsbnKey)
                | attributeError => rfl
                | typeError => rfl
                | other _ => rfl

/-! ### What completing means -/

/-- What a submission that completes does: it returns a response and commits, each
reference is one of the resolved or of the unresolved books, as `_resolve_book` decides,
and `get_work` is asked for works only. -/
structure Completes (hashing : Hashing) (tenantId : Uuid) (submission : Submission)
    (draws : SubmitDraws) (answers : Nat → ReferenceAnswers) (db : Database) : Prop where
  responds : ∃ response after resolutions,
    (submit hashing tenantId submission draws answers).runOn (.opened db) =
        (.ok response, .opened after) ∧
      List.Forall₂ (fun ref (resolution : Resolution) =>
        ((resolveBook tenantId ref.1 (answers ref.2)).runOn (.opened db)).1 = .ok resolution ∧
          (resolution.1.isSome ↔ resolution.2 = none)) submission.books.zipIdx resolutions ∧
      response.resolvedBooks = resolutions.filterMap (·.1) ∧
      response.unresolvedBooks = resolutions.filterMap (·.2)
  asserted : ∀ ref ∈ submission.books, ∀ client : ReferenceClient,
    resolveBookWith tenantId ref client.asserting = resolveBookWith tenantId ref client

/-! ### What is given -/

/-- The tables hold texts that fit their columns. -/
structure ColumnsFit (db : Database) : Prop where
  books : ∀ b ∈ db.catalog.books.rows, fitsColumn 50 b.olWorkKey
  lists : ∀ l ∈ db.readingLists.rows, fitsColumn 128 l.emailHash ∧ fitsColumn 255 l.emailMasked

/-- `mask_email` accepts the email, and the texts stored fit their columns. -/
structure TextsFit (hashing : Hashing) (submission : Submission) : Prop where
  hashes : fitsColumn 128 (hashPii hashing submission.patronName) ∧
    fitsColumn 128 (hashPii hashing submission.email)
  name : fitsColumn 255 (maskName submission.patronName)
  email : ∃ masked, maskEmail submission.email = .ok masked ∧ fitsColumn 255 masked
  references : ∀ ref ∈ submission.books,
    ref.olWorkKey.all (fitsColumn 50) ∧ ref.isbn.all (fitsColumn 20)

/-- `uuid4` draws what is not in use. -/
structure DrawsUnused (draws : SubmitDraws) (db : Database) : Prop where
  list : ∀ l ∈ db.readingLists.rows, l.id ≠ draws.listId
  items : ∀ item ∈ db.readingListItems.rows, ∀ i, item.id ≠ draws.itemId i
  injective : Function.Injective draws.itemId

/-- The client returns what its signatures say or raises `OpenLibraryError`. -/
structure WellTyped (answers : ReferenceAnswers) : Prop where
  isbn : (∃ message, answers.isbn = .error (.openLibraryError message)) ∨
    ∃ workKey, answers.isbn = .ok workKey ∧ workKey.all (fitsColumn 50)
  work : (∃ message, answers.work = .error (.openLibraryError message)) ∨
    ∃ workDetail, answers.work = .ok workDetail ∧ workDetail.title.isSome

theorem WellTyped.keys {answers : ReferenceAnswers} (typed : WellTyped answers)
    (workKey : Option String) (returned : answers.isbn = .ok workKey) :
    workKey.all (fitsColumn 50) := by
  rcases typed.isbn with ⟨_, raised⟩ | ⟨key, answered, fits⟩
  · cases returned.symm.trans raised
  · exact Except.ok.inj (answered.symm.trans returned) ▸ fits

/-- No two books of the tenant share the ISBN of the reference. -/
def Unshared (c : Catalog) (tenantId : Uuid) (ref : BookReference) : Prop :=
  ∀ isbn, ref.isbn = some isbn → isbn ≠ "" → (booksByIsbn c tenantId isbn).length ≤ 1

/-! ### References -/

section References

variable {c : Catalog} {tenantId : Uuid} {ref : BookReference} {answers : ReferenceAnswers}
  {resolution : Resolution}

theorem isSome_verifiedBy {workKey isbn : Option String} (typed : WellTyped answers)
    (keyed : truthy workKey) : (verifiedBy answers workKey isbn).isSome := by
  obtain ⟨olWorkKey, rfl, _⟩ := (Option.any_eq_true _ _).mp keyed
  rcases typed.work with ⟨_, raised⟩ | ⟨workDetail, returned, titled⟩
  · simp [verifiedBy, raised]
  · obtain ⟨title, named⟩ := Option.isSome_iff_exists.mp titled
    simp [verifiedBy, returned, named]

theorem isSome_resolveByKeyIn {workKey isbn : Option String} (typed : WellTyped answers)
    (keyed : truthy workKey) (fits : workKey.all (fitsColumn 50)) :
    (resolveByKeyIn c tenantId workKey isbn answers).isSome := by
  obtain ⟨olWorkKey, rfl, _⟩ := (Option.any_eq_true _ _).mp keyed
  have text : noNul olWorkKey := noNul_iff.mpr (fitsColumn_iff.mp (by simpa using fits)).2
  rw [resolveByKeyIn, if_pos keyed, Option.getD_some, lookedUp, if_pos text]
  change Option.isSome (match findBook tenantId olWorkKey c with
    | some book => some (inCatalog olWorkKey book)
    | none => verifiedBy answers (some olWorkKey) isbn)
  cases findBook tenantId olWorkKey c with
  | some book => rfl
  | none => exact isSome_verifiedBy typed keyed

theorem fits_isbnKey {workKey : Option String}
    (keys : ∀ workKey, answers.isbn = .ok workKey → workKey.all (fitsColumn 50))
    (fits : ref.olWorkKey.all (fitsColumn 50)) (answered : isbnKey ref answers = some workKey) :
    workKey.all (fitsColumn 50) := by
  unfold isbnKey at answered
  split at answered
  · exact Option.some.inj answered ▸ fits
  · cases answered
  · exact Option.some.inj answered ▸ keys _ ‹_›

/-- A reference is resolved or unresolved unless its ISBN is shared. -/
theorem isSome_resolveIn (typed : WellTyped answers)
    (fits : ref.olWorkKey.all (fitsColumn 50) ∧ ref.isbn.all (fitsColumn 20)) :
    (resolveIn c tenantId ref answers).isSome ↔ Unshared c tenantId ref := by
  unfold resolveIn Unshared
  cases given : ref.isbn.filter (· ≠ "") with
  | none =>
      have absent (isbn : String) (found : ref.isbn = some isbn) : ¬ isbn ≠ "" := fun nonempty => by
        rw [filter_isbn_eq_some.mpr ⟨found, nonempty⟩] at given
        cases given
      simp only [isSome_resolveByKeyIn typed (keyed_of_filter_isbn given) fits.1, true_iff]
      exact fun isbn found nonempty => absurd nonempty (absent isbn found)
  | some isbn =>
      obtain ⟨found, nonempty⟩ := filter_isbn_eq_some.mp given
      have single : (∀ other, ref.isbn = some other → other ≠ "" →
          (booksByIsbn c tenantId other).length ≤ 1) ↔
          (scalarOne (booksByIsbn c tenantId isbn)).isSome := by
        rw [scalarOne_isSome, found]
        refine ⟨fun all => all isbn rfl nonempty, fun one other same _ => ?_⟩
        obtain rfl := Option.some.inj same
        exact one
      have isbnFits : fitsColumn 20 isbn := by
        have fits := fits.2
        rw [found] at fits
        simpa using fits
      rw [single]
      dsimp only
      rw [lookedUp, if_pos (noNul_iff.mpr (fitsColumn_iff.mp isbnFits).2)]
      cases scalarOne (booksByIsbn c tenantId isbn) with
      | none => simp
      | some looked =>
          simp only [Option.isSome_some, iff_true]
          cases looked with
          | some book => rfl
          | none =>
              by_cases keyed : truthy ref.olWorkKey
              · simp [keyed, isSome_resolveByKeyIn typed keyed fits.1]
              · have answered : ∃ workKey, isbnKey ref answers = some workKey := by
                  rcases typed.isbn with ⟨_, raised⟩ | ⟨workKey, returned, _⟩
                  · exact ⟨ref.olWorkKey, by simp only [isbnKey, raised]⟩
                  · exact ⟨workKey, by simp only [isbnKey, returned]⟩
                obtain ⟨workKey, answered⟩ := answered
                by_cases known : truthy workKey
                · have keyFits := fits_isbnKey typed.keys fits.1 answered
                  simp [keyed, answered, known, isSome_resolveByKeyIn typed known keyFits]
                · simp [keyed, answered, known]

/-- The text a reference is stored under fits the column. -/
def KeyFits (resolution : Resolution) : Prop :=
  ∀ book, resolution.1 = some book → fitsColumn 50 book.olWorkKey

theorem keyFits_resolveIn (books : ∀ b ∈ c.books.rows, fitsColumn 50 b.olWorkKey)
    (keys : ∀ workKey, answers.isbn = .ok workKey → workKey.all (fitsColumn 50))
    (fits : ref.olWorkKey.all (fitsColumn 50))
    (resolved : resolveIn c tenantId ref answers = some resolution) : KeyFits resolution := by
  refine @key_resolveIn _ _ _ _ _ (fitsColumn 50 ·) books (fun _ workKey tried _ _ key isKey => ?_)
    resolved
  have fits : workKey.all (fitsColumn 50) := by
    unfold keyTried at tried
    split at tried
    · exact fits_isbnKey keys fits tried
    · exact Option.some.inj tried ▸ fits
  rw [Option.mem_def.mp isKey] at fits
  simpa using fits

end References

/-! ### Writes -/

section Writes

variable {hashing : Hashing} {db : Database} {tenantId listId : Uuid} {submission : Submission}

/-- The list is stored: its row is there, and no item was added. -/
theorem putList_total {emailMasked : String} {draws : SubmitDraws}
    (columns : ColumnsFit db) (texts : TextsFit hashing submission)
    (masked : fitsColumn 255 emailMasked) (unused : DrawsUnused draws db) :
    ∃ listId after, putList hashing tenantId submission emailMasked draws.listId
        (findList tenantId (hashPii hashing submission.email) db) db = some (listId, after) ∧
      (∃ list ∈ after.readingLists.rows, list.id = listId) ∧
      ∀ item ∈ after.readingListItems.rows, item ∈ db.readingListItems.rows := by
  cases existing : findList tenantId (hashPii hashing submission.email) db with
  | none =>
      let list := newList draws.listId tenantId (hashPii hashing submission.patronName)
        (hashPii hashing submission.email) (maskName submission.patronName) emailMasked
      have free : ∀ l ∈ db.readingLists.rows, ¬ l.Clash list := by
        rintro l mem (same | ⟨tenant, hash⟩)
        · exact unused.list l mem same
        · have found := findList_eq_some.mpr ⟨mem, tenant, hash⟩
          cases existing.symm.trans found
      obtain ⟨lists, inserted⟩ := Table.exists_insert free
      have fits : ∀ parameter ∈ list.parameters, parameter.fits :=
        ReadingList.fits_parameters.mpr ⟨texts.hashes, texts.name, masked⟩
      have whole : list.cut = list := ReadingList.cut_of_fits fits
      have sent : sent (.insertReadingList list) db =
          some ((), { db with readingLists := lists }) := by
        rw [sent_eq_some, insertReadingList_eq_ok, whole]
        exact ⟨ReadingList.requireFits_eq_ok.mpr fits, lists, inserted, rfl⟩
      refine ⟨draws.listId, _, bind_eq_some.mpr ⟨(), _, sent, rfl⟩, ⟨list, ?_, rfl⟩,
        fun _ mem => mem⟩
      exact (Table.insert_eq_some.mp inserted).2 ▸ List.mem_append_right _ List.mem_cons_self
  | some list =>
      obtain ⟨mem, _, _⟩ := findList_eq_some.mp existing
      have fits := columns.lists list mem
      have fits : ∀ parameter ∈ (renamed hashing submission list).parameters, parameter.fits :=
        ReadingList.fits_parameters.mpr ⟨⟨texts.hashes.1, fits.1⟩, texts.name, fits.2⟩
      have whole := ReadingList.cut_of_fits fits
      let cleared (db : Database) : Database :=
        { db with readingListItems := db.readingListItems.delete (·.readingListId = list.id) }
      have deleted (db : Database) :
          sent (.deleteReadingListItems list.id) db = some ((), cleared db) :=
        sent_eq_some.mpr rfl
      have kept (db : Database) (item : ReadingListItem)
          (itemMem : item ∈ (cleared db).readingListItems.rows) :
          item ∈ db.readingListItems.rows :=
        (List.mem_filter.mp itemMem).1
      rw [putList]
      split
      case isTrue =>
        let lists := db.readingLists.modify (replaceList (renamed hashing submission list))
          clash_of_replaceList
        have updated : sent (.updateReadingList (renamed hashing submission list)) db =
            some ((), { db with readingLists := lists }) := by
          rw [sent_eq_some, updateReadingList_eq_ok, whole]
          exact ⟨ReadingList.requireFits_eq_ok.mpr fits, rfl⟩
        refine ⟨list.id, _, bind_eq_some.mpr ⟨(), _, updated,
          bind_eq_some.mpr ⟨(), _, deleted _, rfl⟩⟩, ⟨_, List.mem_map_of_mem mem, ?_⟩, kept _⟩
        exact replaceList_id ..
      case isFalse =>
        exact ⟨list.id, _, bind_eq_some.mpr ⟨(), _, deleted db, rfl⟩, ⟨list, mem, rfl⟩, kept db⟩

/-- The catalog id of a resolved reference is the id of a book. -/
theorem any_catalogId {c : Catalog} (resolved : Option ResolvedBook) :
    (catalogId c tenantId resolved).all fun bookId => c.books.rows.any (·.id = bookId) := by
  match resolved with
  | none => rfl
  | some ⟨_, _, false⟩ => rfl
  | some ⟨olWorkKey, _, true⟩ =>
      cases found : findBook tenantId olWorkKey c with
      | none => simp [catalogId, found]
      | some book =>
          have mem := (findBook_eq_some.mp found).1
          simpa [catalogId, found] using ⟨book, mem, rfl⟩

/-- What is stored of a resolved reference fits. -/
theorem fits_itemOf {c : Catalog} {itemId : Uuid} {ref : BookReference} {resolution : Resolution}
    (keyFits : KeyFits resolution)
    (fits : ref.olWorkKey.all (fitsColumn 50) ∧ ref.isbn.all (fitsColumn 20)) :
    ∀ parameter ∈ (itemOf c tenantId listId itemId ref resolution).parameters, parameter.fits := by
  rw [ReadingListItem.fits_parameters]
  cases found : resolution.1 with
  | none => simpa [itemOf, itemFor, found] using fits
  | some book => simpa [itemOf, itemFor, found] using ⟨keyFits book found, fits.2⟩

/-- The item of a reference that resolves is stored. -/
theorem putReference_total {answers : ReferenceAnswers} {itemId : Uuid} {ref : BookReference}
    {resolution : Resolution} (resolved : resolveIn db.catalog tenantId ref answers = some resolution)
    (keyFits : KeyFits resolution)
    (fits : ref.olWorkKey.all (fitsColumn 50) ∧ ref.isbn.all (fitsColumn 20))
    (listed : ∃ list ∈ db.readingLists.rows, list.id = listId)
    (unused : ∀ item ∈ db.readingListItems.rows, item.id ≠ itemId) :
    ∃ items item, putReference tenantId listId itemId ref answers db =
        some (resolution, { db with readingListItems := items }) ∧
      items.rows = db.readingListItems.rows ++ [item] ∧ item.id = itemId := by
  let item := itemOf db.catalog tenantId listId itemId ref resolution
  have idOf : item.id = itemId := by
    cases found : resolution.1 <;> simp [item, itemOf, itemFor, found]
  have itemFits := @fits_itemOf tenantId listId db.catalog itemId ref resolution keyFits fits
  have whole : item.cut = item := ReadingListItem.cut_of_fits itemFits
  have refers : item.refersTo db := by
    have owner : db.readingLists.rows.any (·.id = item.readingListId) := by
      simpa [item, itemOf, readingListId_itemFor] using listed
    have book : item.bookId.all fun bookId => db.catalog.books.rows.any (·.id = bookId) := by
      cases found : resolution.1 with
      | none => simp [item, itemOf, itemFor, found]
      | some book => simpa [item, itemOf, itemFor, found] using any_catalogId (some book)
    rw [ReadingListItem.refersTo, owner, book]
    rfl
  obtain ⟨items, inserted⟩ := @Table.exists_insert _ _ _ db.readingListItems item
    fun other mem same => unused other mem (same.trans idOf)
  have stored : sent (.insertReadingListItem item) db =
      some ((), { db with readingListItems := items }) := by
    rw [sent_eq_some, insertReadingListItem_eq_ok, whole]
    exact ⟨ReadingListItem.requireFits_eq_ok.mpr itemFits, refers, items, inserted, rfl⟩
  have put : putItem tenantId listId itemId ref resolution db =
      some ((), { db with readingListItems := items }) := by
    have text (book : ResolvedBook) (isBook : book ∈ resolution.1) : noNul book.olWorkKey :=
      noNul_iff.mpr (fitsColumn_iff.mp (keyFits book isBook)).2
    rw [putItem, foundAgain_of_noNul text]
    exact stored
  refine ⟨items, item, ?_, (Table.insert_eq_some.mp inserted).2, idOf⟩
  have looked : resolving tenantId ref answers db = some (resolution, db) := by
    rw [resolving, resolved]
    rfl
  exact bind_eq_some.mpr ⟨resolution, db, looked, bind_eq_some.mpr ⟨(), _, put, rfl⟩⟩

/-- The items of references that resolve are stored. -/
theorem putReferences_total {answers : Nat → ReferenceAnswers} {draws : SubmitDraws}
    {refs : List BookReference} {i : Nat}
    (books : ∀ b ∈ db.catalog.books.rows, fitsColumn 50 b.olWorkKey)
    (typed : ∀ j, WellTyped (answers j))
    (fits : ∀ ref ∈ refs, ref.olWorkKey.all (fitsColumn 50) ∧ ref.isbn.all (fitsColumn 20))
    (unshared : ∀ ref ∈ refs, Unshared db.catalog tenantId ref)
    (listed : ∃ list ∈ db.readingLists.rows, list.id = listId)
    (unused : ∀ item ∈ db.readingListItems.rows, ∀ j, i ≤ j → item.id ≠ draws.itemId j)
    (injective : Function.Injective draws.itemId) :
    ∃ books after, putReferences tenantId listId draws answers refs i db = some (books, after) := by
  induction refs generalizing i db with
  | nil => exact ⟨_, _, rfl⟩
  | cons ref rest ih =>
      obtain ⟨refFits, restFit⟩ := List.forall_mem_cons.mp fits
      obtain ⟨refUnshared, restUnshared⟩ := List.forall_mem_cons.mp unshared
      obtain ⟨resolution, resolved⟩ :=
        Option.isSome_iff_exists.mp ((isSome_resolveIn (typed i) refFits).mpr refUnshared)
      have keyFits := keyFits_resolveIn books (typed i).keys refFits.1 resolved
      obtain ⟨items, item, stored, rows, idOf⟩ := putReference_total resolved keyFits refFits listed
        fun item mem => unused item mem i le_rfl
      obtain ⟨later, after, putRest⟩ :=
        @ih { db with readingListItems := items } (i + 1) books restFit restUnshared listed
          fun other mem j later => by
            rw [rows] at mem
            rcases List.mem_append.mp mem with old | new
            · exact unused other old j (by omega)
            · obtain rfl := List.mem_singleton.mp new
              rw [idOf]
              exact fun same => by have := injective same; omega
      exact ⟨_, after, bind_eq_some.mpr ⟨resolution, _, stored,
        bind_eq_some.mpr ⟨later, after, putRest, rfl⟩⟩⟩

end Writes

/-! ### What is to hold, and when -/

theorem settled_exclusive {c : Catalog} {tenantId : Uuid} {resolution : Resolution}
    (settled : Settled c tenantId resolution) : resolution.1.isSome ↔ resolution.2 = none := by
  rcases settled with ⟨unresolved, reason⟩ | ⟨book, rfl, _⟩
  · obtain ⟨reason, given⟩ := Option.isSome_iff_exists.mp reason
    simp [unresolved, given]
  · simp

/-- The outcomes of a submission are those of its references. -/
theorem foldr_outcomes {resolutions : List Resolution}
    (exclusive : ∀ resolution ∈ resolutions, resolution.1.isSome ↔ resolution.2 = none) :
    resolutions.foldr outcomes ([], []) =
      (resolutions.filterMap (·.1), resolutions.filterMap (·.2)) := by
  induction resolutions with
  | nil => rfl
  | cons resolution rest ih =>
      obtain ⟨first, others⟩ := List.forall_mem_cons.mp exclusive
      rw [List.foldr_cons, ih others]
      obtain ⟨resolved, unresolved⟩ := resolution
      cases resolved with
      | none => cases unresolved <;> rfl
      | some book =>
          obtain rfl : unresolved = none := first.mp rfl
          rfl

theorem exists_of_forall₂ {α β : Type} {R : α → β → Prop} {as : List α} {bs : List β} {a : α}
    (related : List.Forall₂ R as bs) (mem : a ∈ as) : ∃ b ∈ bs, R a b := by
  induction related with
  | nil => cases mem
  | cons first _ ih =>
      rcases List.mem_cons.mp mem with rfl | later
      · exact ⟨_, List.mem_cons_self, first⟩
      · obtain ⟨b, bMem, holds⟩ := ih later
        exact ⟨b, List.mem_cons_of_mem _ bMem, holds⟩

variable {hashing : Hashing} {tenantId : Uuid} {submission : Submission} {draws : SubmitDraws}
  {answers : Nat → ReferenceAnswers} {db : Database}

/-- A submission that completes found no shared ISBN. -/
theorem Completes.unshared (completes : Completes hashing tenantId submission draws answers db)
    (texts : TextsFit hashing submission) (typed : ∀ i, WellTyped (answers i)) {ref : BookReference} (mem : ref ∈ submission.books) :
    Unshared db.catalog tenantId ref := by
  obtain ⟨_, _, resolutions, _, resolved, _⟩ := completes.responds
  obtain ⟨i, at_i⟩ := List.mem_iff_getElem?.mp mem
  obtain ⟨resolution, _, returned, _⟩ :=
    exists_of_forall₂ resolved (List.mk_mem_zipIdx_iff_getElem?.mpr at_i)
  have found := (reads_resolveBook.returns_iff db resolution).mp returned
  exact (isSome_resolveIn (typed i) (texts.references ref mem)).mp (Option.isSome_iff_exists.mpr ⟨resolution, found⟩)

/-- A submission whose ISBNs are not shared completes. -/
theorem completes_of_unshared (columns : ColumnsFit db) (texts : TextsFit hashing submission)
    (unused : DrawsUnused draws db) (typed : ∀ i, WellTyped (answers i))
    (unshared : ∀ ref ∈ submission.books, Unshared db.catalog tenantId ref) :
    Completes hashing tenantId submission draws answers db := by
  obtain ⟨masked, accepted, fits⟩ := texts.email
  obtain ⟨listId, middle, stored, listed, kept⟩ :=
    @putList_total hashing db tenantId submission masked draws columns texts fits unused
  have catalog : middle.catalog = db.catalog :=
    (putList_eq_some (fun list found => (findList_eq_some.mp found).1) stored).2
  obtain ⟨books, after, put⟩ := @putReferences_total middle tenantId listId answers draws
    submission.books 0 (catalog ▸ columns.books) typed texts.references (catalog ▸ unshared) listed
    (fun item mem j _ => unused.items item (kept item mem) j) unused.injective
  have computed : putSubmission hashing tenantId submission draws answers db = some
      (⟨listId, (findList tenantId (hashPii hashing submission.email) db).isSome,
        maskName submission.patronName, masked, books.1, books.2⟩, after) := by
    rw [putSubmission, accepted]
    change putBooks _ _ _ _ _ _ _ _ = _
    exact bind_eq_some.mpr ⟨listId, middle, stored, bind_eq_some.mpr ⟨books, after, put, rfl⟩⟩
  have submits : Submits hashing db (⟨tenantId, submission, draws, answers⟩, _) after :=
    submits_of_put computed
  obtain ⟨_, resolutions, _, resolves, _, _, _, _, resolvedBooks, unresolvedBooks, _⟩ :=
    submits_stored submits
  have settled : ∀ resolution ∈ resolutions, resolution.1.isSome ↔ resolution.2 = none := by
    intro resolution mem
    obtain ⟨ref, _, resolved⟩ := exists_of_forall₂ resolves.flip mem
    exact settled_exclusive (settled_resolveIn resolved)
  rw [foldr_outcomes settled] at resolvedBooks unresolvedBooks
  refine ⟨⟨_, after, resolutions, submits, ?_, resolvedBooks, unresolvedBooks⟩,
    fun ref _ client => resolveBookWith_asserting tenantId ref client⟩
  refine List.Forall₂.imp (fun ref resolution resolved => ?_) resolves
  exact ⟨(reads_resolveBook.returns_iff db resolution).mpr resolved,
    settled_exclusive (settled_resolveIn resolved)⟩

/-- A submission completes exactly when no ISBN it names is shared by two books of the
tenant. -/
theorem submission_completes_iff (columns : ColumnsFit db) (texts : TextsFit hashing submission)
    (unused : DrawsUnused draws db) (typed : ∀ i, WellTyped (answers i)) :
    Completes hashing tenantId submission draws answers db ↔
      ∀ ref ∈ submission.books, Unshared db.catalog tenantId ref :=
  ⟨fun completes _ mem => completes.unshared texts typed mem,
    completes_of_unshared columns texts unused typed⟩

/-- A work with an ISBN. -/
def printed (workKey : String) (id : Uuid) : WorkInput :=
  let work := plainWork workKey (some "One") id
  { work with result := { work.result with isbn := some "9780140328721" } }

/-- Bob asks for that ISBN; Open Library is unreachable. -/
def bobAsks : Submission where
  patronName := "Bob"
  email := "bob@example.com"
  books := [⟨none, some "9780140328721", .inr (by decide +kernel)⟩]
  nonempty := by simp

def unreachable : ReferenceAnswers :=
  ⟨.error (.openLibraryError ""), .error (.openLibraryError "")⟩

def bobsDraws : SubmitDraws := ⟨7, fun i => 100 + i⟩

theorem textsFit_bobAsks : TextsFit plainHashing bobAsks := by
  refine ⟨by decide +kernel, by decide +kernel, ⟨"b*b@e*****e.com", by decide +kernel⟩, ?_⟩
  decide +kernel

theorem wellTyped_unreachable : WellTyped unreachable := ⟨.inl ⟨"", rfl⟩, .inl ⟨"", rfl⟩⟩

theorem drawsUnused_bobsDraws (lists : db.readingLists.rows = [])
    (items : db.readingListItems.rows = []) : DrawsUnused bobsDraws db := by
  refine ⟨by simp [lists], by simp [items], fun i j same => ?_⟩
  exact Nat.add_left_cancel same

/-- One book has the ISBN. -/
theorem single_isbn_completes :
    Completes plainHashing 1 bobAsks bobsDraws (fun _ => unreachable)
      (ingested [printed "OL1W" 10] sampleRequest .empty) := by
  refine (submission_completes_iff ⟨by decide +kernel, by decide +kernel⟩ textsFit_bobAsks
    (drawsUnused_bobsDraws (by decide +kernel) (by decide +kernel))
    fun _ => wellTyped_unreachable).mpr ?_
  intro ref mem isbn given _
  obtain rfl := List.mem_singleton.mp mem
  obtain rfl := Option.some.inj given
  decide +kernel

/-- An ingestion stores two works with one ISBN; the look-up of a submission that names
it raises. -/
theorem shared_isbn_raises :
    let works := [printed "OL1W" 10, printed "OL2W" 20]
    let db := ingested works sampleRequest .empty
    StoresEverything (fun _ => "") (searchFinding works) sampleRequest .empty db ∧
      ColumnsFit db ∧ TextsFit plainHashing bobAsks ∧ DrawsUnused bobsDraws db ∧
      WellTyped unreachable ∧
      ¬ Completes plainHashing 1 bobAsks bobsDraws (fun _ => unreachable) db := by
  have columns : ColumnsFit (ingested [printed "OL1W" 10, printed "OL2W" 20] sampleRequest .empty) :=
    ⟨by decide +kernel, by decide +kernel⟩
  refine ⟨storesEverything_ingested _ _ _ (fresh_empty 99) (by decide +kernel) (by decide +kernel),
    columns, textsFit_bobAsks, drawsUnused_bobsDraws (by decide +kernel) (by decide +kernel),
    wellTyped_unreachable, fun completes => ?_⟩
  have unshared := completes.unshared textsFit_bobAsks
    (fun _ => wellTyped_unreachable) List.mem_cons_self
  exact absurd (unshared "9780140328721" rfl (by decide)) (by decide +kernel)

end TenantLibrary.ReadingLists
