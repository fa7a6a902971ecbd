import TenantLibrary.ReadingLists.Masking
import TenantLibrary.ReadingLists.Resolution

/-!
What a submission does to the database, without a session.

`putSubmission` applies each write of `submit` at once and has no result where `submit`
raises; `commits_submit` connects the two. `putSubmission_eq_some` says what the tables
of lists and items are after a submission that returns: one list, and the items of that
list, change.
-/

namespace TenantLibrary.ReadingLists

open TenantLibrary.Lib TenantLibrary.OpenLibrary TenantLibrary.Store TenantLibrary.Ingestion

/-- State transformers that may have no result. -/
abbrev Transformer := StateT Database Option

/-- Write one row. -/
def sent (write : Write) : Transformer Unit := fun db =>
  (database write db).toOption.map fun after => ((), after)

/-- The id of the catalog's book for a reference that was found in the catalog. -/
def catalogId (c : Catalog) (tenantId : Uuid) : Option ResolvedBook → Option Uuid
  | some ⟨olWorkKey, _, true⟩ => (findBook tenantId olWorkKey c).map (·.id)
  | _ => none

/-- The item of a reference that was resolved so. -/
def itemOf (c : Catalog) (tenantId readingListId itemId : Uuid) (ref : BookReference)
    (resolution : Resolution) : ReadingListItem :=
  itemFor itemId readingListId ref resolution.1 (catalogId c tenantId resolution.1)

/-- Resolve a reference against the catalog. -/
def resolving (tenantId : Uuid) (ref : BookReference) (answers : ReferenceAnswers) :
    Transformer Resolution := fun db =>
  (resolveIn db.catalog tenantId ref answers).map fun resolution => (resolution, db)

/-- A reference found in the catalog is looked up by its key once more. -/
def foundAgain {α : Type} (resolved : Option ResolvedBook) (result : Option α) : Option α :=
  match resolved with
  | some ⟨olWorkKey, _, true⟩ => lookedUp olWorkKey result
  | _ => result

theorem eq_some_of_foundAgain {α : Type} {resolved : Option ResolvedBook} {result : Option α}
    {a : α} (found : foundAgain resolved result = some a) : result = some a := by
  unfold foundAgain at found
  split at found
  · exact (lookedUp_eq_some.mp found).2
  · exact found

/-- A key of text is looked up once more without harm. -/
theorem foundAgain_of_noNul {α : Type} {resolved : Option ResolvedBook} {result : Option α}
    (text : ∀ book ∈ resolved, noNul book.olWorkKey) : foundAgain resolved result = result := by
  unfold foundAgain
  split
  · rw [lookedUp, if_pos (text _ rfl)]
  · rfl

/-- Insert the item of a resolved reference. -/
def putItem (tenantId readingListId itemId : Uuid) (ref : BookReference) (resolution : Resolution) :
    Transformer Unit := fun db =>
  foundAgain resolution.1 (sent (.insertReadingListItem
    (itemOf db.catalog tenantId readingListId itemId ref resolution)) db)

def putReference (tenantId readingListId itemId : Uuid) (ref : BookReference)
    (answers : ReferenceAnswers) : Transformer Resolution := do
  let resolution ← resolving tenantId ref answers
  putItem tenantId readingListId itemId ref resolution
  return resolution

/-- The outcome of a reference in front of the outcomes of the later ones. -/
def outcomes (resolution : Resolution) (later : List ResolvedBook × List UnresolvedBook) :
    List ResolvedBook × List UnresolvedBook :=
  match resolution.1 with
  | some book => (book :: later.1, later.2)
  | none => (later.1, resolution.2.toList ++ later.2)

def putReferences (tenantId readingListId : Uuid) (draws : SubmitDraws)
    (answers : Nat → ReferenceAnswers) :
    List BookReference → Nat → Transformer (List ResolvedBook × List UnresolvedBook)
  | [], _ => return ([], [])
  | ref :: rest, i => do
      let resolution ← putReference tenantId readingListId (draws.itemId i) ref (answers i)
      let later ← putReferences tenantId readingListId draws answers rest (i + 1)
      return outcomes resolution later

/-- The list of a tenant under an email hash. -/
def findList (tenantId : Uuid) (emailHash : String) (db : Database) : Option ReadingList :=
  db.readingLists.rows.find? fun l => l.tenantId = tenantId && l.emailHash = emailHash

/-- The list with the name of a submission. -/
def renamed (hashing : Hashing) (submission : Submission) (list : ReadingList) : ReadingList :=
  { list with
    patronNameHash := hashPii hashing submission.patronName
    patronNameMasked := maskName submission.patronName }

/-- Create the list, or rename it and clear its items; the id of the list. -/
def putList (hashing : Hashing) (tenantId : Uuid) (submission : Submission) (emailMasked : String)
    (listId : Uuid) : Option ReadingList → Transformer Uuid
  | none => do
      sent (.insertReadingList (newList listId tenantId (hashPii hashing submission.patronName)
        (hashPii hashing submission.email) (maskName submission.patronName) emailMasked))
      return listId
  | some list => do
      if renamed hashing submission list ≠ list then
        sent (.updateReadingList (renamed hashing submission list))
      sent (.deleteReadingListItems list.id)
      return list.id

/-- Everything after the look-up of the list. -/
def putBooks (hashing : Hashing) (tenantId : Uuid) (submission : Submission) (draws : SubmitDraws)
    (answers : Nat → ReferenceAnswers) (emailMasked : String) (existing : Option ReadingList) :
    Transformer ReadingListResponse := do
  let readingListId ← putList hashing tenantId submission emailMasked draws.listId existing
  let books ← putReferences tenantId readingListId draws answers submission.books 0
  return {
    readingListId
    isUpdate := existing.isSome
    patronNameMasked := maskName submission.patronName
    emailMasked
    resolvedBooks := books.1
    unresolvedBooks := books.2 }

def putSubmission (hashing : Hashing) (tenantId : Uuid) (submission : Submission)
    (draws : SubmitDraws) (answers : Nat → ReferenceAnswers) : Transformer ReadingListResponse :=
  fun db => (maskEmail submission.email).toOption >>= fun emailMasked =>
    putBooks hashing tenantId submission draws answers emailMasked
      (findList tenantId (hashPii hashing submission.email) db) db

/-! ### The service computes it -/

variable {hashing : Hashing} {tenantId readingListId itemId : Uuid} {ref : BookReference}
  {answers : ReferenceAnswers}

theorem mirrors_storeReference :
    Mirrors database (storeReference tenantId readingListId itemId ref answers)
      (putReference tenantId readingListId itemId ref answers) := by
  have stored (resolution : Resolution) (bookId : Option Uuid) : Mirrors database
      (do
        SessionM.add (.insertReadingListItem
          (itemFor itemId readingListId ref resolution.1 bookId))
        return resolution : IngestM Resolution)
      (sent (.insertReadingListItem (itemFor itemId readingListId ref resolution.1 bookId)) >>=
        fun _ => pure resolution) :=
    (Mirrors.add _).bind fun _ => .pure resolution
  apply reads_resolveBook.mirrors.bind
  intro resolution
  obtain ⟨resolved, unresolved⟩ := resolution
  match resolved with
  | some ⟨olWorkKey, _, true⟩ =>
      apply ((reads_findByWorkKey olWorkKey).mirrors.bind fun found => stored _ _).congr
      intro db
      change Option.bind (Option.map _ (lookedUp _ _)) _ = Option.bind (putItem _ _ _ _ _ db) _
      simp only [putItem, foundAgain, lookedUp]
      cases noNul olWorkKey <;> rfl
  | some ⟨olWorkKey, title, false⟩ => exact (stored _ none).congr fun _ => rfl
  | none => exact (stored _ none).congr fun _ => rfl

theorem mirrors_storeReferences {draws : SubmitDraws} {answers : Nat → ReferenceAnswers}
    {refs : List BookReference} {i : Nat} :
    Mirrors database (storeReferences tenantId readingListId draws answers refs i)
      (putReferences tenantId readingListId draws answers refs i) := by
  induction refs generalizing i with
  | nil => exact .pure _
  | cons ref rest ih =>
      refine mirrors_storeReference.bind fun resolution => ih.bind fun later => ?_
      obtain ⟨resolved, unresolved⟩ := resolution
      cases resolved with
      | some book => exact .pure _
      | none => exact .pure _

theorem mirrors_add (write : Write) :
    Mirrors database (SessionM.add write : IngestM Unit) (sent write) :=
  .add write

theorem scalarOne_lists (emailHash : String) (db : Database) :
    scalarOne (db.readingLists.rows.filter fun l =>
      l.tenantId = tenantId && l.emailHash = emailHash) = some (findList tenantId emailHash db) :=
  scalarOne_filter db.readingLists <|
    Table.clash_of_columns fun _ _ tenant hash => .inr ⟨tenant, hash⟩

/-- `submit` computes `putSubmission` and commits it. -/
theorem commits_submit {submission : Submission} {draws : SubmitDraws}
    {answers : Nat → ReferenceAnswers} :
    Commits database (submit hashing tenantId submission draws answers)
      (putSubmission hashing tenantId submission draws answers) := by
  let emailHash := hashPii hashing submission.email
  let continued := putBooks hashing tenantId submission draws answers
  refine (@Commits.bind Database Write DbError Failure _ _ database _ _ _
    (fun emailMasked db => continued emailMasked (findList tenantId emailHash db) db)
    (reads_liftAnswer _).mirrors fun emailMasked => ?_).congr fun db => ?_
  · refine (@Commits.bind Database Write DbError Failure _ _ database _ _ _
      (fun rows db => scalarOne rows >>= fun existing => continued emailMasked existing db)
      (Reads.select _).mirrors fun rows => ?_).congr fun db => ?_
    · refine (@Commits.bind Database Write DbError Failure _ _ database _ _ _
        (continued emailMasked) (reads_scalarOneOrNone rows).mirrors fun existing => ?_).congr
          fun db => ?_
      · have rest (readingListId : Uuid) : Commits database
            (storeAndAnswer tenantId readingListId existing.isSome (maskName submission.patronName)
              emailMasked submission.books draws answers)
            (putReferences tenantId readingListId draws answers submission.books 0 >>= fun books =>
              pure {
                readingListId
                isUpdate := existing.isSome
                patronNameMasked := maskName submission.patronName
                emailMasked
                resolvedBooks := books.1
                unresolvedBooks := books.2 }) :=
          .bind mirrors_storeReferences fun books => .commit _
        cases existing with
        | none =>
            refine (Commits.bind (mirrors_add _) fun _ => Commits.bind Mirrors.flush fun _ =>
              Commits.bind (.pure _) rest).congr fun db => congrFun ?_ db
            simp only [continued, putBooks, putList, bind_assoc, pure_bind]
            rfl
        | some list =>
            have cleared : Commits database
                (do
                  SessionM.add (.deleteReadingListItems list.id)
                  SessionM.flush database
                  let readingListId ← pure list.id
                  _) _ :=
              .bind (mirrors_add _) fun _ => Commits.bind Mirrors.flush fun _ =>
                Commits.bind (.pure _) rest
            dsimp only
            split
            case isTrue changed =>
              refine (Commits.bind (mirrors_add _) fun _ => cleared).congr fun db => congrFun ?_ db
              have changed : renamed hashing submission list ≠ list := changed
              simp only [continued, putBooks, putList, if_pos changed, bind_assoc, pure_bind]
              rfl
            case isFalse same =>
              refine cleared.congr fun db => congrFun ?_ db
              have same : ¬ renamed hashing submission list ≠ list := same
              simp only [continued, putBooks, putList, if_neg same, bind_assoc, pure_bind]
      · cases scalarOne rows <;> rfl
    · change scalarOne _ >>= _ = _
      rw [scalarOne_lists]
      rfl
  · rw [putSubmission]
    cases maskEmail submission.email <;> rfl

/-! ### What each write does -/

variable {db after : Database}

theorem bind_eq_some {α β : Type} {first : Transformer α} {next : α → Transformer β} {b : β} :
    (first >>= next) db = some (b, after) ↔
      ∃ a middle, first db = some (a, middle) ∧ next a middle = some (b, after) := by
  change first db >>= (fun reached => next reached.1 reached.2) = _ ↔ _
  rw [Option.bind_eq_bind, Option.bind_eq_some_iff, Prod.exists]

theorem sent_eq_some {write : Write} :
    sent write db = some ((), after) ↔ database write db = .ok after := by
  unfold sent
  cases database write db <;> simp [Except.toOption]

theorem insertReadingList_eq_ok {list : ReadingList} :
    database (.insertReadingList list) db = .ok after ↔
      list.cut.requireFits = .ok () ∧ ∃ lists, db.readingLists.insert list.cut = some lists ∧
        after = { db with readingLists := lists } := by
  rw [database, Write.send, bind_eq_ok]
  simp only [bind_eq_ok, orUniqueViolation_eq_ok]
  constructor
  · rintro ⟨⟨⟩, fits, lists, inserted, made⟩
    exact ⟨fits, lists, inserted, (Except.ok.inj made).symm⟩
  · rintro ⟨fits, lists, inserted, rfl⟩
    exact ⟨(), fits, lists, inserted, rfl⟩

theorem updateReadingList_eq_ok {list : ReadingList} :
    database (.updateReadingList list) db = .ok after ↔
      list.cut.requireFits = .ok () ∧ after = { db with
        readingLists := db.readingLists.modify (replaceList list.cut) clash_of_replaceList } := by
  rw [database, Write.send, bind_eq_ok]
  constructor
  · rintro ⟨⟨⟩, fits, made⟩
    exact ⟨fits, (Except.ok.inj made).symm⟩
  · rintro ⟨fits, rfl⟩
    exact ⟨(), fits, rfl⟩

theorem insertReadingListItem_eq_ok {item : ReadingListItem} :
    database (.insertReadingListItem item) db = .ok after ↔
      item.cut.requireFits = .ok () ∧ item.refersTo db ∧
        ∃ items, db.readingListItems.insert item.cut = some items ∧
          after = { db with readingListItems := items } := by
  rw [database, Write.send, bind_eq_ok]
  constructor
  · rintro ⟨⟨⟩, fits, stored⟩
    split at stored
    case isTrue refers =>
      simp only [bind_eq_ok, orUniqueViolation_eq_ok] at stored
      obtain ⟨items, inserted, made⟩ := stored
      exact ⟨fits, refers, items, inserted, (Except.ok.inj made).symm⟩
    case isFalse => cases stored
  · rintro ⟨fits, refers, items, inserted, rfl⟩
    refine ⟨(), fits, ?_⟩
    rw [if_pos refers, inserted]
    rfl

/-! ### What a submission does -/

theorem findList_eq_some {emailHash : String} {list : ReadingList} :
    findList tenantId emailHash db = some list ↔
      list ∈ db.readingLists.rows ∧ list.tenantId = tenantId ∧ list.emailHash = emailHash :=
  Table.find?_columns fun _ _ tenant hash => .inr ⟨tenant, hash⟩

theorem ReadingList.Clash.symm {a b : ReadingList} (clash : a.Clash b) : b.Clash a := by
  rcases clash with id | ⟨tenant, hash⟩
  · exact .inl id.symm
  · exact .inr ⟨tenant.symm, hash.symm⟩

/-- Replacing a stored list by itself changes nothing. -/
theorem map_replaceList_self {list : ReadingList} (mem : list ∈ db.readingLists.rows) :
    db.readingLists.rows.map (replaceList list) = db.readingLists.rows := by
  refine (List.map_congr_left fun row rowMem => ?_).trans (List.map_id _)
  unfold replaceList
  split
  case isTrue same =>
    obtain rfl : row = list :=
      db.readingLists.eq_of_clash (fun _ _ => ReadingList.Clash.symm) rowMem mem (.inl same)
    rfl
  case isFalse => rfl

/-- The list is created, or it is renamed and its items are deleted. -/
inductive ListStored (hashing : Hashing) (tenantId : Uuid) (submission : Submission)
    (emailMasked : String) (newId : Uuid) (db after : Database) : Option ReadingList → Uuid → Prop
    where
  | created (free : ∀ l ∈ db.readingLists.rows, l.id ≠ newId)
      (lists : after.readingLists.rows = db.readingLists.rows ++
        [newList newId tenantId (hashPii hashing submission.patronName)
          (hashPii hashing submission.email) (maskName submission.patronName)
          (cut 255 emailMasked)])
      (items : after.readingListItems = db.readingListItems) :
      ListStored hashing tenantId submission emailMasked newId db after none newId
  | replaced (list : ReadingList)
      (lists : after.readingLists.rows =
        db.readingLists.rows.map (replaceList (renamed hashing submission list)))
      (items : after.readingListItems.rows =
        db.readingListItems.rows.filter fun item => item.readingListId ≠ list.id) :
      ListStored hashing tenantId submission emailMasked newId db after (some list) list.id

/-- The columns of a list keep the mask of the name. -/
theorem cut_newList (listId : Uuid) (nameHash emailHash name emailMasked : String) :
    (newList listId tenantId nameHash emailHash (maskName name) emailMasked).cut =
      newList listId tenantId nameHash emailHash (maskName name) (cut 255 emailMasked) := by
  simp only [newList, ReadingList.cut, cut_maskName]

theorem replaceList_cut_renamed {submission : Submission} {list : ReadingList} :
    replaceList (renamed hashing submission list).cut =
      replaceList (renamed hashing submission list) := by
  funext row
  have kept : (renamed hashing submission list).cut.patronNameMasked =
      (renamed hashing submission list).patronNameMasked := by
    simp only [ReadingList.cut, renamed, cut_maskName]
  unfold replaceList
  rw [kept]
  rfl

theorem putList_eq_some {submission : Submission} {emailMasked : String} {newId listId : Uuid}
    {existing : Option ReadingList} (known : ∀ list ∈ existing, list ∈ db.readingLists.rows)
    (stored : putList hashing tenantId submission emailMasked newId existing db =
      some (listId, after)) :
    ListStored hashing tenantId submission emailMasked newId db after existing listId ∧
      after.catalog = db.catalog := by
  cases existing with
  | none =>
      obtain ⟨⟨⟩, middle, inserted, returned⟩ := bind_eq_some.mp stored
      obtain ⟨rfl, rfl⟩ := Prod.mk.inj (Option.some.inj returned)
      obtain ⟨_, lists, accepted, rfl⟩ := insertReadingList_eq_ok.mp (sent_eq_some.mp inserted)
      obtain ⟨free, rows⟩ := Table.insert_eq_some.mp accepted
      rw [cut_newList] at rows
      exact ⟨.created (fun l mem same => free l mem (.inl same)) rows rfl, rfl⟩
  | some list =>
      have mem := known list rfl
      rw [putList] at stored
      split at stored
      case isTrue =>
        obtain ⟨⟨⟩, first, updated, rest⟩ := bind_eq_some.mp stored
        obtain ⟨⟨⟩, second, deleted, returned⟩ := bind_eq_some.mp rest
        obtain ⟨rfl, rfl⟩ := Prod.mk.inj (Option.some.inj returned)
        obtain ⟨_, rfl⟩ := updateReadingList_eq_ok.mp (sent_eq_some.mp updated)
        obtain rfl := Except.ok.inj (sent_eq_some.mp deleted)
        refine ⟨.replaced list ?_ (by simp), rfl⟩
        exact congrArg (List.map · _) replaceList_cut_renamed
      case isFalse same =>
        obtain ⟨⟨⟩, second, deleted, returned⟩ := bind_eq_some.mp stored
        obtain ⟨rfl, rfl⟩ := Prod.mk.inj (Option.some.inj returned)
        obtain rfl := Except.ok.inj (sent_eq_some.mp deleted)
        refine ⟨.replaced list ?_ (by simp), rfl⟩
        rw [not_not.mp same, map_replaceList_self mem]

/-- The references resolve so against a catalog, in order. -/
def Resolves (c : Catalog) (tenantId : Uuid) (answers : Nat → ReferenceAnswers)
    (refs : List (BookReference × Nat)) (resolutions : List Resolution) : Prop :=
  List.Forall₂ (fun ref resolution =>
    resolveIn c tenantId ref.1 (answers ref.2) = some resolution) refs resolutions

/-- The items of references that resolve so. -/
def itemsOf (c : Catalog) (tenantId listId : Uuid) (draws : SubmitDraws)
    (refs : List (BookReference × Nat)) (resolutions : List Resolution) : List ReadingListItem :=
  List.zipWith (fun ref resolution =>
    itemOf c tenantId listId (draws.itemId ref.2) ref.1 resolution) refs resolutions

theorem putReferences_eq_some {listId : Uuid} {draws : SubmitDraws}
    {answers : Nat → ReferenceAnswers} {refs : List BookReference} {i : Nat}
    {books : List ResolvedBook × List UnresolvedBook}
    (stored : putReferences tenantId listId draws answers refs i db = some (books, after)) :
    ∃ resolutions, Resolves db.catalog tenantId answers (refs.zipIdx i) resolutions ∧
      books = resolutions.foldr outcomes ([], []) ∧
      after.catalog = db.catalog ∧ after.readingLists = db.readingLists ∧
      after.readingListItems.rows = db.readingListItems.rows ++
        (itemsOf db.catalog tenantId listId draws (refs.zipIdx i) resolutions).map
          ReadingListItem.cut := by
  induction refs generalizing i db books with
  | nil =>
      obtain ⟨rfl, rfl⟩ := Prod.mk.inj (Option.some.inj stored)
      exact ⟨[], .nil, rfl, rfl, rfl, by simp [itemsOf]⟩
  | cons ref rest ih =>
      obtain ⟨resolution, first, putFirst, stored⟩ := bind_eq_some.mp stored
      obtain ⟨later, last, putRest, returned⟩ := bind_eq_some.mp stored
      obtain ⟨rfl, rfl⟩ := Prod.mk.inj (Option.some.inj returned)
      obtain ⟨resolution', middle, resolved, putFirst⟩ := bind_eq_some.mp putFirst
      obtain ⟨⟨⟩, inserted, put, returned⟩ := bind_eq_some.mp putFirst
      obtain ⟨rfl, rfl⟩ := Prod.mk.inj (Option.some.inj returned)
      obtain ⟨found, resolvedIn, same⟩ := Option.map_eq_some_iff.mp resolved
      obtain ⟨rfl, rfl⟩ := Prod.mk.inj same
      obtain ⟨_, _, items, insertedItem, rfl⟩ :=
        insertReadingListItem_eq_ok.mp (sent_eq_some.mp (eq_some_of_foundAgain put))
      obtain ⟨resolutions, resolves, collected, catalog, lists, rows⟩ := ih putRest
      refine ⟨found :: resolutions, .cons resolvedIn resolves, ?_, catalog, lists, ?_⟩
      · rw [collected, List.foldr_cons]
      · rw [rows, (Table.insert_eq_some.mp insertedItem).2, List.append_assoc]
        rfl

end TenantLibrary.ReadingLists
