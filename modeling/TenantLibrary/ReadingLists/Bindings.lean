import TenantLibrary.ReadingLists.Completion
import TenantLibrary.ReadingLists.Lengths

/-!
The values a submission binds.

They are the hash of the email, the row of the list, the texts that the references are
looked up by, and the rows of the items; `stored_itemsSent` says that these items are the
ones a submission stores. All of them fit, whatever the tables and the answers of Open
Library are, when the submission is `Storable` (`fits_of_storable`), and some do not fit
the empty tables when it is not (`storable_of_fits`).
-/

namespace TenantLibrary.ReadingLists

open TenantLibrary.Lib TenantLibrary.OpenLibrary TenantLibrary.Store TenantLibrary.Ingestion

/-! ### The values bound -/

/-- The key `_find_by_work_key` is called with, if it is. -/
def keyAsked (workKey : Option String) : List String := (workKey.filter (· ≠ "")).toList

/-- The texts that one reference is looked up by: those of `_resolve_book`, and the key of
a book it found in the catalog. -/
def asked (c : Catalog) (tenantId : Uuid) (ref : BookReference) (answers : ReferenceAnswers) :
    List String :=
  let resolving :=
    match ref.isbn.filter (· ≠ "") with
    | none => keyAsked ref.olWorkKey
    | some isbn =>
        isbn ::
          match lookedUp isbn (scalarOne (booksByIsbn c tenantId isbn)) with
          | none => []
          | some (some _) => []
          | some none =>
              if truthy ref.olWorkKey then keyAsked ref.olWorkKey
              else (isbnKey ref answers).elim [] keyAsked
  let found :=
    match resolveIn c tenantId ref answers with
    | some (some ⟨olWorkKey, _, true⟩, _) => [olWorkKey]
    | _ => []
  resolving ++ found

/-- The texts that the references are looked up by, up to the first that raises. -/
def lookups (c : Catalog) (tenantId : Uuid) (answers : Nat → ReferenceAnswers) :
    List BookReference → Nat → List String
  | [], _ => []
  | ref :: rest, i =>
      asked c tenantId ref (answers i) ++
        match resolveIn c tenantId ref (answers i) with
        | none => []
        | some _ => lookups c tenantId answers rest (i + 1)

/-- The items sent, up to the first reference that raises. -/
def itemsSent (c : Catalog) (tenantId readingListId : Uuid) (draws : SubmitDraws)
    (answers : Nat → ReferenceAnswers) : List BookReference → Nat → List ReadingListItem
  | [], _ => []
  | ref :: rest, i =>
      match resolveIn c tenantId ref (answers i) with
      | none => []
      | some resolution =>
          itemOf c tenantId readingListId (draws.itemId i) ref resolution ::
            itemsSent c tenantId readingListId draws answers rest (i + 1)

/-- What an `UPDATE` of the list binds: the attributes that change. -/
def renamingParameters (hashing : Hashing) (submission : Submission) (list : ReadingList) :
    List Parameter :=
  let list' := renamed hashing submission list
  (if list'.patronNameHash = list.patronNameHash then []
    else [.varchar 128 list'.patronNameHash]) ++
  (if list'.patronNameMasked = list.patronNameMasked then []
    else [.varchar 255 list'.patronNameMasked])

/-- The row a submission inserts for a patron without a list. -/
def insertedList (hashing : Hashing) (tenantId : Uuid) (submission : Submission)
    (draws : SubmitDraws) (emailMasked : String) : ReadingList :=
  newList draws.listId tenantId (hashPii hashing submission.patronName)
    (hashPii hashing submission.email) (maskName submission.patronName) emailMasked

/-- What `submit` binds. -/
def Submission.parameters (submission : Submission) (hashing : Hashing) (tenantId : Uuid)
    (draws : SubmitDraws) (answers : Nat → ReferenceAnswers) (db : Database) : List Parameter :=
  match maskEmail submission.email with
  | .error _ => []
  | .ok emailMasked =>
      let emailHash := hashPii hashing submission.email
      let (readingListId, written) :=
        match findList tenantId emailHash db with
        | none =>
            let list := insertedList hashing tenantId submission draws emailMasked
            (list.id, list.parameters)
        | some list => (list.id, renamingParameters hashing submission list)
      .text emailHash :: written ++
        (lookups db.catalog tenantId answers submission.books 0).map .text ++
        (itemsSent db.catalog tenantId readingListId draws answers submission.books 0).flatMap
          (·.parameters)

/-- The items sent are the items that references which resolve so are stored as. -/
theorem itemsSent_eq {c : Catalog} {tenantId listId : Uuid} {draws : SubmitDraws}
    {answers : Nat → ReferenceAnswers} {refs : List BookReference} {i : Nat}
    {resolutions : List Resolution}
    (resolves : Resolves c tenantId answers (refs.zipIdx i) resolutions) :
    itemsSent c tenantId listId draws answers refs i =
      itemsOf c tenantId listId draws (refs.zipIdx i) resolutions := by
  induction refs generalizing i resolutions with
  | nil => rfl
  | cons ref rest ih =>
      rw [List.zipIdx_cons] at resolves
      cases resolves with
      | cons resolved later =>
          rw [itemsSent, resolved, List.zipIdx_cons]
          exact congrArg (_ :: ·) (ih later)

/-- A submission that returns has stored the items sent, as the columns keep them. -/
theorem stored_itemsSent {hashing : Hashing} {entry : Entry} {response : ReadingListResponse}
    {s t : Database} (submits : Submits hashing s (entry, response) t) :
    ∃ kept, t.readingListItems.rows = kept ++
      (itemsSent s.catalog entry.tenantId response.readingListId entry.draws entry.answers
        entry.submission.books 0).map ReadingListItem.cut := by
  obtain ⟨middle, resolutions, _, resolves, _, _, items, _⟩ := submits_stored submits
  exact ⟨_, itemsSent_eq resolves ▸ items⟩

/-! ### Submissions that fit -/

/-- The texts of a reference fit the columns of an item. -/
def BookReference.Storable (ref : BookReference) : Prop :=
  ref.olWorkKey.all (fitsColumn 50) ∧ ref.isbn.all (fitsColumn 20)

/-- The submission is one that can be stored: what the masks keep has no NUL, the mask of
the email is short enough, and the references fit. A domain that begins with a `.` is
not masked, and nothing is stored. -/
def Submission.Storable (submission : Submission) : Prop :=
  (domainOf submission.email).head? = some '.' ∨
    (maskLength submission.email ≤ 255 ∧ '\x00' ∉ keptOf submission.email) ∧
    (∀ word ∈ words submission.patronName.toList, word.head? ≠ some '\x00') ∧
    ∀ ref ∈ submission.books, ref.Storable

section

variable {c : Catalog} {tenantId : Uuid} {text : String}

theorem fits_keyAsked {workKey : Option String} (fits : workKey.all (fitsColumn 50))
    (mem : text ∈ keyAsked workKey) : (Parameter.text text).fits := by
  obtain ⟨rfl, _⟩ := Option.filter_eq_some_iff.mp (Option.mem_toList.mp mem)
  exact fits_text_of_fitsColumn (by simpa using fits)

theorem fits_asked {ref : BookReference} {answers : ReferenceAnswers}
    (books : ∀ b ∈ c.books.rows, fitsColumn 50 b.olWorkKey)
    (keys : ∀ workKey, answers.isbn = .ok workKey → workKey.all (fitsColumn 50))
    (storable : ref.Storable) (mem : text ∈ asked c tenantId ref answers) :
    (Parameter.text text).fits := by
  rcases List.mem_append.mp mem with resolving | found
  · split at resolving
    case h_1 => exact fits_keyAsked storable.1 resolving
    case h_2 isbn given =>
      have isbnFits : fitsColumn 20 isbn := by
        have fits := storable.2
        rw [(filter_isbn_eq_some.mp given).1] at fits
        simpa using fits
      rcases List.mem_cons.mp resolving with rfl | byKey
      · exact fits_text_of_fitsColumn isbnFits
      · split at byKey
        · cases byKey
        · cases byKey
        · split at byKey
          · exact fits_keyAsked storable.1 byKey
          · cases answered : isbnKey ref answers with
            | none =>
                rw [answered] at byKey
                cases byKey
            | some workKey =>
                rw [answered] at byKey
                exact fits_keyAsked (fits_isbnKey keys storable.1 answered) byKey
  · split at found
    case h_1 olWorkKey _ _ resolved =>
      obtain rfl := List.mem_singleton.mp found
      exact fits_text_of_fitsColumn (keyFits_resolveIn books keys storable.1 resolved _ rfl)
    case h_2 => cases found

variable {answers : Nat → ReferenceAnswers} {refs : List BookReference} {i : Nat}

theorem fits_lookups (books : ∀ b ∈ c.books.rows, fitsColumn 50 b.olWorkKey)
    (keys : ∀ i workKey, (answers i).isbn = .ok workKey → workKey.all (fitsColumn 50))
    (storable : ∀ ref ∈ refs, ref.Storable) (mem : text ∈ lookups c tenantId answers refs i) :
    (Parameter.text text).fits := by
  induction refs generalizing i with
  | nil => cases mem
  | cons ref rest ih =>
      obtain ⟨first, others⟩ := List.forall_mem_cons.mp storable
      rcases List.mem_append.mp mem with here | later
      · exact fits_asked books (keys i) first here
      · split at later
        · cases later
        · exact ih others later

theorem fits_itemsSent {listId : Uuid} {draws : SubmitDraws} {item : ReadingListItem}
    (books : ∀ b ∈ c.books.rows, fitsColumn 50 b.olWorkKey)
    (keys : ∀ i workKey, (answers i).isbn = .ok workKey → workKey.all (fitsColumn 50))
    (storable : ∀ ref ∈ refs, ref.Storable)
    (mem : item ∈ itemsSent c tenantId listId draws answers refs i) :
    ∀ parameter ∈ item.parameters, parameter.fits := by
  induction refs generalizing i with
  | nil => cases mem
  | cons ref rest ih =>
      obtain ⟨first, others⟩ := List.forall_mem_cons.mp storable
      rw [itemsSent] at mem
      split at mem
      case h_1 => cases mem
      case h_2 resolution resolved =>
        rcases List.mem_cons.mp mem with rfl | later
        · exact fits_itemOf (keyFits_resolveIn books (keys i) first.1 resolved) first
        · exact ih others later

end

section

variable {hashing : Hashing} {tenantId : Uuid} {submission : Submission} {draws : SubmitDraws}

/-- What is bound of a list fits, whether it is inserted or renamed. -/
theorem fits_renamingParameters {list : ReadingList}
    (digests : ∀ text, fitsColumn 128 (hashing.hmac text))
    (name : fitsColumn 255 (maskName submission.patronName)) :
    ∀ parameter ∈ renamingParameters hashing submission list, parameter.fits := by
  rw [renamingParameters, List.forall_mem_append]
  constructor
  · split
    · exact nofun
    · exact List.forall_mem_singleton.mpr (digests _)
  · split
    · exact nofun
    · exact List.forall_mem_singleton.mpr name

/-- Whatever the tables and the answers are, all that a storable submission binds fits. -/
theorem fits_of_storable {answers : Nat → ReferenceAnswers} {db : Database}
    (accepted : acceptsEmail submission.email)
    (named : submission.patronName.toList.length ≤ 255)
    (digests : ∀ text, fitsColumn 128 (hashing.hmac text))
    (books : ∀ b ∈ db.catalog.books.rows, fitsColumn 50 b.olWorkKey)
    (keys : ∀ i workKey, (answers i).isbn = .ok workKey → workKey.all (fitsColumn 50))
    (storable : submission.Storable) :
    ∀ parameter ∈ submission.parameters hashing tenantId draws answers db, parameter.fits := by
  unfold Submission.parameters
  cases returned : maskEmail submission.email with
  | error _ => exact nofun
  | ok emailMasked =>
      have masks : (domainOf submission.email).head? ≠ some '.' := by
        rcases masked_or_leading_dot accepted with ⟨_, masks⟩ | ⟨⟨_, raised⟩, _⟩
        · exact masks
        · cases raised.symm.trans returned
      obtain ⟨email, name, references⟩ := storable.resolve_left masks
      have emailFits : fitsColumn 255 emailMasked :=
        (fitsColumn_maskEmail accepted returned).mpr email
      have nameFits : fitsColumn 255 (maskName submission.patronName) :=
        (fitsColumn_maskName named).mpr name
      dsimp only
      rw [List.forall_mem_append, List.forall_mem_append, List.forall_mem_cons]
      refine ⟨⟨⟨fits_text_of_fitsColumn (digests _), ?_⟩, ?_⟩, ?_⟩
      · split
        · exact ReadingList.fits_parameters.mpr ⟨⟨digests _, digests _⟩, nameFits, emailFits⟩
        · exact fits_renamingParameters digests nameFits
      · intro parameter mem
        obtain ⟨text, lookedUp, rfl⟩ := List.mem_map.mp mem
        exact fits_lookups books keys references lookedUp
      · intro parameter mem
        obtain ⟨item, sent, parameterMem⟩ := List.mem_flatMap.mp mem
        exact fits_itemsSent books keys references sent parameter parameterMem

theorem findBook_empty (workKey : String) : findBook tenantId workKey Catalog.empty = none := by
  cases found : findBook tenantId workKey Catalog.empty with
  | none => rfl
  | some book => cases (findBook_eq_some.mp found).1

/-- With nothing in the catalog and Open Library unreachable, a reference of texts is not
resolved. -/
theorem resolveIn_unreachable {ref : BookReference}
    (isbnText : ∀ isbn, ref.isbn.filter (· ≠ "") = some isbn → noNul isbn)
    (keyText : ∀ key ∈ keyAsked ref.olWorkKey, noNul key) :
    ∃ reason, resolveIn Catalog.empty tenantId ref unreachable = some (none, reason) := by
  have byKey : resolveByKeyIn Catalog.empty tenantId ref.olWorkKey ref.isbn unreachable =
      some (none, some ⟨ref.olWorkKey, ref.isbn, "Work not found on Open Library"⟩) := by
    unfold resolveByKeyIn
    split
    case isTrue keyed =>
      obtain ⟨key, given, nonempty⟩ := (Option.any_eq_true _ _).mp keyed
      have text : noNul key := by
        refine keyText key (Option.mem_toList.mpr (Option.filter_eq_some_iff.mpr ⟨given, ?_⟩))
        simpa using nonempty
      rw [given, Option.getD_some, lookedUp, if_pos text, findBook_empty]
      rfl
    case isFalse => rfl
  unfold resolveIn
  split
  case h_1 => exact ⟨_, byKey⟩
  case h_2 isbn given =>
    have none : lookedUp isbn (scalarOne (booksByIsbn Catalog.empty tenantId isbn)) = some none :=
      if_pos (isbnText isbn given)
    rw [none]
    change ∃ reason, (if truthy ref.olWorkKey then _ else _) = _
    split
    · exact ⟨_, byKey⟩
    · change ∃ reason, (if truthy ref.olWorkKey then _ else _) = _
      split
      · exact ⟨_, byKey⟩
      · exact ⟨_, rfl⟩

/-- What is looked up then is the ISBN and the key of the reference. -/
theorem texts_of_asked {ref : BookReference}
    (texts : ∀ text ∈ asked Catalog.empty tenantId ref unreachable, noNul text) :
    (∀ isbn, ref.isbn.filter (· ≠ "") = some isbn → noNul isbn) ∧
      ∀ key ∈ keyAsked ref.olWorkKey, noNul key := by
  have resolving := (List.forall_mem_append.mp texts).1
  cases given : ref.isbn.filter (· ≠ "") with
  | none =>
      rw [given] at resolving
      exact ⟨nofun, resolving⟩
  | some isbn =>
      rw [given] at resolving
      obtain ⟨isbnText, byKey⟩ := List.forall_mem_cons.mp resolving
      have none : lookedUp isbn (scalarOne (booksByIsbn Catalog.empty tenantId isbn)) =
          some none := if_pos isbnText
      rw [none] at byKey
      refine ⟨fun other same => Option.some.inj same ▸ isbnText, ?_⟩
      dsimp only at byKey
      split at byKey
      · exact byKey
      · exact byKey

/-- Then every reference of texts is stored as it was given. -/
theorem mem_itemsSent_unreachable {listId : Uuid} {refs : List BookReference} {i : Nat}
    {ref : BookReference}
    (texts : ∀ text ∈ lookups Catalog.empty tenantId (fun _ => unreachable) refs i, noNul text)
    (mem : ref ∈ refs) :
    ∃ item ∈ itemsSent Catalog.empty tenantId listId draws (fun _ => unreachable) refs i,
      item.olWorkKey = ref.olWorkKey ∧ item.isbn = ref.isbn := by
  induction refs generalizing i with
  | nil => cases mem
  | cons first rest ih =>
      obtain ⟨here, later⟩ := List.forall_mem_append.mp texts
      obtain ⟨isbnText, keyText⟩ := texts_of_asked here
      obtain ⟨reason, resolved⟩ := @resolveIn_unreachable tenantId first isbnText keyText
      rw [resolved] at later
      rw [itemsSent, resolved]
      rcases List.mem_cons.mp mem with rfl | inRest
      · exact ⟨_, List.mem_cons_self, rfl, rfl⟩
      · obtain ⟨item, itemMem, same⟩ := @ih (i + 1) later inRest
        exact ⟨item, List.mem_cons_of_mem _ itemMem, same⟩

/-- A submission whose parameters fit there is storable. -/
theorem storable_of_fits (accepted : acceptsEmail submission.email)
    (named : submission.patronName.toList.length ≤ 255)
    (fits : ∀ parameter ∈
      submission.parameters hashing tenantId draws (fun _ => unreachable) .empty, parameter.fits) :
    submission.Storable := by
  rcases masked_or_leading_dot accepted with ⟨⟨emailMasked, returned⟩, _⟩ | ⟨_, dotted⟩
  · right
    rw [Submission.parameters, returned] at fits
    dsimp only at fits
    rw [List.forall_mem_append, List.forall_mem_append, List.forall_mem_cons] at fits
    obtain ⟨⟨⟨_, list⟩, texts⟩, items⟩ := fits
    obtain ⟨_, name, email⟩ := ReadingList.fits_parameters.mp list
    refine ⟨(fitsColumn_maskEmail accepted returned).mp email,
      (fitsColumn_maskName named).mp name, fun ref mem => ?_⟩
    obtain ⟨item, sent, key, isbn⟩ := mem_itemsSent_unreachable
      (fun text looked => fits_text_iff.mp (texts _ (List.mem_map_of_mem looked))) mem
    have stored := ReadingListItem.fits_parameters.mp fun parameter parameterMem =>
      items parameter (List.mem_flatMap.mpr ⟨item, sent, parameterMem⟩)
    rw [key, isbn] at stored
    exact stored
  · exact .inl dotted

end

end TenantLibrary.ReadingLists
