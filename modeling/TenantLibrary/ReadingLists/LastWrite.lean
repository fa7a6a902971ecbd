import Mathlib.Data.List.Forall2
import TenantLibrary.Lib.LastWrite
import TenantLibrary.Lib.Run
import TenantLibrary.ReadingLists.Replace
import TenantLibrary.ReadingLists.Submitting

/-!
Reading lists as a last-write-wins map.

The map is over pairs of a tenant and a normalised email. A submission writes the entry
of its pair: the list was created by the first one and holds the name and the references
of the last one. `reading_lists_refine` says that the tables of lists and items
represent that map after every sequence of submissions, as long as the hashes of the
emails submitted do not collide.
-/

namespace TenantLibrary.ReadingLists

open TenantLibrary.Lib TenantLibrary.OpenLibrary TenantLibrary.Store TenantLibrary.Ingestion

/-! ### The map -/

/-- A submission made, with what its environment does. -/
structure Entry where
  tenantId : Uuid
  submission : Submission
  draws : SubmitDraws
  answers : Nat → ReferenceAnswers

/-- The pair a submission is for. -/
def Entry.key (hashing : Hashing) (entry : Entry) : Uuid × String :=
  (entry.tenantId, hashing.normalized entry.submission.email)

/-- A submission that returns a response and commits. -/
def Submits (hashing : Hashing) (s : Database) (label : Entry × ReadingListResponse)
    (t : Database) : Prop :=
  (submit hashing label.1.tenantId label.1.submission label.1.draws label.1.answers).runOn
    (.opened s) = (.ok label.2, .opened t)

/-- The hashes of the emails submitted do not collide. -/
def NoCollision (hashing : Hashing) (entries : List Entry) : Prop :=
  ∀ e ∈ entries, ∀ e' ∈ entries,
    hashPii hashing e.submission.email = hashPii hashing e'.submission.email →
      hashing.normalized e.submission.email = hashing.normalized e'.submission.email

/-! ### What represents it -/

/-- The list is the one of the pair. -/
def ListFor (hashing : Hashing) (list : ReadingList) (key : Uuid × String) : Prop :=
  list.tenantId = key.1 ∧ list.emailHash = hashing.hmac key.2

/-- The items of a list. -/
def itemsIn (db : Database) (listId : Uuid) : List ReadingListItem :=
  db.readingListItems.rows.filter fun item => item.readingListId = listId

/-- The columns of an item keep the identifiers of a reference as they are: its ISBN and,
when no book of the tenant has the ISBN, its key and the key Open Library has a work for. -/
structure Entry.KeepsReference (c : Catalog) (entry : Entry) (ref : BookReference × Nat) :
    Prop where
  isbn : ref.1.isbn.map (cut 20) = ref.1.isbn
  own : IsbnAbsent c entry.tenantId ref.1 → ref.1.olWorkKey.map (cut 50) = ref.1.olWorkKey
  tried : IsbnAbsent c entry.tenantId ref.1 →
    ∀ key, keyTried ref.1 (entry.answers ref.2) = some key →
      ∀ workDetail, (entry.answers ref.2).work = .ok workDetail → key.map (cut 50) = key

def Entry.Kept (c : Catalog) (entry : Entry) : Prop :=
  ∀ ref ∈ entry.submission.books.zipIdx, entry.KeepsReference c ref

/-- The item of a reference (with its position), by what `_resolve_book` returns for it. -/
def ItemFor (db : Database) (entry : Entry) (ref : BookReference × Nat) (item : ReadingListItem) :
    Prop :=
  ∃ resolution : Resolution,
    ((resolveBook entry.tenantId ref.1 (entry.answers ref.2)).runOn (.opened db)).1 =
        .ok resolution ∧
      item.resolved = resolution.1.isSome ∧ item.isbn = ref.1.isbn ∧
      item.olWorkKey = (match resolution.1 with
        | some book => some book.olWorkKey
        | none => ref.1.olWorkKey) ∧
      (item.bookId.isSome ↔ ∃ book, resolution.1 = some book ∧ book.foundInCatalog) ∧
      ∀ book bookId, resolution.1 = some book → item.bookId = some bookId →
        ∃ b ∈ db.catalog.books.rows,
          b.id = bookId ∧ b.tenantId = entry.tenantId ∧ b.olWorkKey = book.olWorkKey

/-- The item of a reference as the columns keep it. -/
def StoredFor (db : Database) (entry : Entry) (ref : BookReference × Nat) (item : ReadingListItem) :
    Prop :=
  ∃ whole, ItemFor db entry ref whole ∧ item = whole.cut

/-- The list holds what its first and its last submission say. -/
def HoldsEntry (hashing : Hashing) (db : Database) (list : ReadingList) (first last : Entry) : Prop :=
  list.id = first.draws.listId ∧
    list.patronNameHash = hashPii hashing last.submission.patronName ∧
    list.patronNameMasked = maskName last.submission.patronName ∧
    List.Forall₂ (ItemFor db last) last.submission.books.zipIdx (itemsIn db list.id)

/-- The tables represent the map: lists and pairs are in bijection, and each list holds
its entry. -/
structure Represents (hashing : Hashing) (entries : List Entry) (db : Database) : Prop where
  pairs : ∀ list ∈ db.readingLists.rows,
    ∃! key, (∃ e ∈ entries, e.key hashing = key) ∧ ListFor hashing list key
  lists : ∀ e ∈ entries,
    ∃! list, list ∈ db.readingLists.rows ∧ ListFor hashing list (e.key hashing)
  contents : ∀ list ∈ db.readingLists.rows, ∀ key, ListFor hashing list key → ∀ first last,
    firstWrite (Entry.key hashing) entries key = some first →
      lastWrite (Entry.key hashing) entries key = some last →
        HoldsEntry hashing db list first last

/-! ### Items -/

variable {hashing : Hashing} {db s t : Database} {entry : Entry} {entries : List Entry}

/-- What an item says depends on the catalog alone. -/
theorem ItemFor.of_catalog {ref : BookReference × Nat} {item : ReadingListItem}
    (same : t.catalog = s.catalog) (holds : ItemFor s entry ref item) : ItemFor t entry ref item := by
  obtain ⟨resolution, returned, rest⟩ := holds
  rw [← same] at rest
  refine ⟨resolution, (reads_resolveBook.returns_iff t resolution).mpr ?_, rest⟩
  rw [same]
  exact (reads_resolveBook.returns_iff s resolution).mp returned

/-- The item stored for a reference. -/
theorem itemFor_itemOf {ref : BookReference × Nat} {resolution : Resolution} (listId : Uuid)
    (resolved : resolveIn db.catalog entry.tenantId ref.1 (entry.answers ref.2) = some resolution) :
    ItemFor db entry ref
      (itemOf db.catalog entry.tenantId listId (entry.draws.itemId ref.2) ref.1 resolution) := by
  refine ⟨resolution, (reads_resolveBook.returns_iff db resolution).mpr resolved, ?_⟩
  rcases settled_resolveIn resolved with ⟨unresolved, _⟩ | ⟨⟨olWorkKey, title, found⟩, rfl, stored⟩
  · simp [itemOf, unresolved, itemFor]
  · cases found with
    | false => simp [itemOf, itemFor, catalogId]
    | true =>
        obtain ⟨b, looked⟩ := stored rfl
        obtain ⟨mem, tenant, key⟩ := findBook_eq_some.mp looked
        refine ⟨rfl, rfl, rfl, by simp [itemOf, itemFor, catalogId, looked], ?_⟩
        rintro _ bookId ⟨⟩ pointed
        have same : some b.id = some bookId := by
          simpa [itemOf, itemFor, catalogId, looked] using pointed
        exact ⟨b, mem, Option.some.inj same, tenant, key⟩

theorem readingListId_itemFor (id listId : Uuid) (ref : BookReference)
    (resolved : Option ResolvedBook) (bookId : Option Uuid) :
    (itemFor id listId ref resolved bookId).readingListId = listId := by
  unfold itemFor
  split <;> rfl

theorem map_cut_eq {n : Nat} {text : Option String} :
    text.map (cut n) = text ↔ ∀ given ∈ text, cut n given = given := by
  cases text <;> simp

/-- The columns keep the item of a reference as it is. -/
theorem ItemFor.cut_eq {ref : BookReference × Nat} {item : ReadingListItem}
    (holds : ItemFor db entry ref item)
    (columns : ∀ b ∈ db.catalog.books.rows, cut 50 b.olWorkKey = b.olWorkKey)
    (kept : entry.KeepsReference db.catalog ref) : item.cut = item := by
  obtain ⟨resolution, returned, _, isbn, key, _⟩ := holds
  have resolved := (reads_resolveBook.returns_iff db resolution).mp returned
  have keyIs : item.olWorkKey.map (cut 50) = item.olWorkKey := by
    cases found : resolution.1 with
    | some book =>
        rw [found] at key
        rw [key]
        have keptTried (absent : IsbnAbsent db.catalog entry.tenantId ref.1) key
            (tried : keyTried ref.1 (entry.answers ref.2) = some key) workDetail
            (answered : (entry.answers ref.2).work = .ok workDetail) :
            ∀ given ∈ key, cut 50 given = given :=
          map_cut_eq.mp (kept.tried absent key tried workDetail answered)
        exact congrArg some (key_resolveIn columns keptTried resolved book found)
    | none =>
        rw [found] at key
        rw [key]
        exact kept.own (absent_of_unresolved resolved found)
  have keptIsbn := kept.isbn
  rw [← isbn] at keptIsbn
  unfold ReadingListItem.cut
  rw [keyIs, keptIsbn]

/-- The items stored for references that the columns keep. -/
theorem forall₂_of_stored {refs : List (BookReference × Nat)} {items : List ReadingListItem}
    (columns : ∀ b ∈ db.catalog.books.rows, cut 50 b.olWorkKey = b.olWorkKey)
    (kept : ∀ ref ∈ refs, entry.KeepsReference db.catalog ref)
    (stored : List.Forall₂ (StoredFor db entry) refs items) :
    List.Forall₂ (ItemFor db entry) refs items := by
  induction stored with
  | nil => exact .nil
  | cons first _ ih =>
      obtain ⟨keptFirst, others⟩ := List.forall_mem_cons.mp kept
      obtain ⟨whole, holds, rfl⟩ := first
      refine .cons ?_ (ih others)
      rw [holds.cut_eq columns keptFirst]
      exact holds

/-- The items a submission stores are one for each of its references. -/
theorem forall₂_itemsOf {refs : List (BookReference × Nat)} {resolutions : List Resolution}
    (listId : Uuid) (resolves : Resolves db.catalog entry.tenantId entry.answers refs resolutions) :
    List.Forall₂ (StoredFor db entry) refs
      ((itemsOf db.catalog entry.tenantId listId entry.draws refs resolutions).map
        ReadingListItem.cut) := by
  induction resolves with
  | nil => exact .nil
  | cons resolved _ ih => exact .cons ⟨_, itemFor_itemOf listId resolved, rfl⟩ ih

theorem readingListId_of_mem_itemsOf {c : Catalog} {tenantId listId : Uuid} {draws : SubmitDraws}
    {refs : List (BookReference × Nat)} {resolutions : List Resolution} {item : ReadingListItem}
    (mem : item ∈ (itemsOf c tenantId listId draws refs resolutions).map ReadingListItem.cut) :
    item.readingListId = listId := by
  obtain ⟨whole, wholeMem, rfl⟩ := List.mem_map.mp mem
  change whole.readingListId = listId
  clear mem
  induction refs generalizing resolutions with
  | nil => cases wholeMem
  | cons ref rest ih =>
      cases resolutions with
      | nil => cases wholeMem
      | cons resolution later =>
          rcases List.mem_cons.mp wholeMem with rfl | later
          · exact readingListId_itemFor ..
          · exact ih later

/-! ### One submission -/

/-- What a submission that returns does to the tables: the list of its pair is created or
replaced (`ListStored`), and its references become the last items. -/
theorem submits_stored {response : ReadingListResponse}
    (submits : Submits hashing s (entry, response) t) :
    ∃ middle resolutions,
      ListStored hashing entry.tenantId entry.submission response.emailMasked entry.draws.listId s
        middle (findList entry.tenantId (hashPii hashing entry.submission.email) s)
        response.readingListId ∧
      Resolves s.catalog entry.tenantId entry.answers entry.submission.books.zipIdx resolutions ∧
      t.catalog = s.catalog ∧ t.readingLists = middle.readingLists ∧
      t.readingListItems.rows = middle.readingListItems.rows ++
        (itemsOf s.catalog entry.tenantId response.readingListId entry.draws
          entry.submission.books.zipIdx resolutions).map ReadingListItem.cut ∧
      response.isUpdate =
        (findList entry.tenantId (hashPii hashing entry.submission.email) s).isSome ∧
      response.resolvedBooks = (resolutions.foldr outcomes ([], [])).1 ∧
      response.unresolvedBooks = (resolutions.foldr outcomes ([], [])).2 ∧
      response.patronNameMasked = maskName entry.submission.patronName ∧
      maskEmail entry.submission.email = .ok response.emailMasked := by
  have returned : (submit hashing entry.tenantId entry.submission entry.draws entry.answers).runOn
      (.opened s) = (.ok response, .opened t) := submits
  obtain ⟨after, put, opened⟩ := commits_submit.returns_iff.mp returned
  obtain rfl : t = after := by simpa [Session.opened] using opened
  obtain ⟨emailMasked, masked, put⟩ := Option.bind_eq_some_iff.mp put
  obtain ⟨listId, middle, list, put⟩ := bind_eq_some.mp put
  obtain ⟨books, last, references, returned⟩ := bind_eq_some.mp put
  obtain ⟨rfl, rfl⟩ := Prod.mk.inj (Option.some.inj returned)
  obtain ⟨stored, catalog⟩ := putList_eq_some
    (fun list found => (findList_eq_some.mp found).1) list
  obtain ⟨resolutions, resolves, rfl, catalog', lists, items⟩ := putReferences_eq_some references
  rw [catalog] at resolves items catalog'
  refine ⟨middle, resolutions, stored, resolves, catalog', lists, items, rfl, rfl, rfl, rfl, ?_⟩
  cases accepted : maskEmail entry.submission.email with
  | error _ =>
      rw [accepted] at masked
      cases masked
  | ok text =>
      rw [accepted] at masked
      exact congrArg Except.ok (Option.some.inj masked)

/-- Every item belongs to a list. -/
def ItemsOwned (db : Database) : Prop :=
  ∀ item ∈ db.readingListItems.rows, ∃ list ∈ db.readingLists.rows, list.id = item.readingListId

/-- The lists after a submission: one more, or one with a new name. -/
inductive ListsAfter (hashing : Hashing) (entry : Entry) (s t : Database) (listId : Uuid) : Prop where
  | created (new : ReadingList) (absent : ∀ l ∈ s.readingLists.rows,
        ¬ ListFor hashing l (entry.key hashing))
      (free : ∀ l ∈ s.readingLists.rows, l.id ≠ listId)
      (rows : t.readingLists.rows = s.readingLists.rows ++ [new])
      (isNew : new.id = listId ∧ listId = entry.draws.listId ∧
        ListFor hashing new (entry.key hashing))
      (named : new.patronNameHash = hashPii hashing entry.submission.patronName ∧
        new.patronNameMasked = maskName entry.submission.patronName)
  | replaced (list : ReadingList) (mem : list ∈ s.readingLists.rows)
      (found : ListFor hashing list (entry.key hashing)) (isList : list.id = listId)
      (rows : t.readingLists.rows =
        s.readingLists.rows.map (replaceList (renamed hashing entry.submission list)))

/-- What a submission does to the database. -/
structure Effect (hashing : Hashing) (entry : Entry) (s t : Database) (listId : Uuid) : Prop where
  catalog : t.catalog = s.catalog
  lists : ListsAfter hashing entry s t listId
  newItems : List.Forall₂ (StoredFor s entry) entry.submission.books.zipIdx (itemsIn t listId)
  otherItems : ∀ id ≠ listId, itemsIn t id = itemsIn s id
  owned : ItemsOwned t

theorem itemsIn_of_append {kept added : List ReadingListItem} {listId : Uuid}
    (rows : t.readingListItems.rows = kept ++ added)
    (others : ∀ item ∈ kept, item.readingListId ≠ listId)
    (own : ∀ item ∈ added, item.readingListId = listId) :
    itemsIn t listId = added ∧
      ∀ id ≠ listId, itemsIn t id = kept.filter fun item => item.readingListId = id := by
  constructor
  · rw [itemsIn, rows, List.filter_append, List.filter_eq_nil_iff.mpr, List.nil_append,
      List.filter_eq_self.mpr]
    · exact fun item mem => by simpa using own item mem
    · exact fun item mem => by simpa using others item mem
  · intro id different
    have none : (added.filter fun item => item.readingListId = id) = [] := by
      apply List.filter_eq_nil_iff.mpr
      intro item mem
      rw [own item mem]
      simpa using different.symm
    rw [itemsIn, rows, List.filter_append, none, List.append_nil]

theorem submits_effect {response : ReadingListResponse} (owned : ItemsOwned s)
    (submits : Submits hashing s (entry, response) t) :
    Effect hashing entry s t response.readingListId ∧
      (response.isUpdate ↔ ∃ list ∈ s.readingLists.rows,
        ListFor hashing list (entry.key hashing)) := by
  obtain ⟨middle, resolutions, stored, resolves, catalog, lists, items, update, _⟩ :=
    submits_stored submits
  have own : ∀ item ∈ (itemsOf s.catalog entry.tenantId response.readingListId entry.draws
      entry.submission.books.zipIdx resolutions).map ReadingListItem.cut,
      item.readingListId = response.readingListId :=
    fun item mem => readingListId_of_mem_itemsOf mem
  have newItems := forall₂_itemsOf response.readingListId resolves
  rw [update]
  generalize response.readingListId = listId at *
  cases existing : findList entry.tenantId (hashPii hashing entry.submission.email) s with
  | none =>
      rw [existing] at stored
      have absent : ∀ l ∈ s.readingLists.rows, ¬ ListFor hashing l (entry.key hashing) := by
        rintro l mem ⟨tenant, hash⟩
        have found : findList entry.tenantId (hashPii hashing entry.submission.email) s = some l :=
          findList_eq_some.mpr ⟨mem, tenant, hash⟩
        rw [existing] at found
        cases found
      cases stored with
      | created free rows sameItems =>
          rw [sameItems] at items
          obtain ⟨added, others⟩ := itemsIn_of_append items (fun item mem same => by
            obtain ⟨l, lMem, isList⟩ := owned item mem
            exact free l lMem (isList.trans same)) own
          refine ⟨⟨catalog, .created _ absent free (lists ▸ rows) ⟨rfl, rfl, rfl, rfl⟩ ⟨rfl, rfl⟩,
            added ▸ newItems, others, ?_⟩, by simpa using absent⟩
          intro item mem
          rw [lists, rows]
          rw [items] at mem
          rcases List.mem_append.mp mem with old | new
          · obtain ⟨l, lMem, isList⟩ := owned item old
            exact ⟨l, List.mem_append_left _ lMem, isList⟩
          · exact ⟨_, List.mem_append_right _ List.mem_cons_self, (own item new).symm⟩
  | some list =>
      rw [existing] at stored
      obtain ⟨mem, tenant, hash⟩ := findList_eq_some.mp existing
      cases stored with
      | replaced _ rows keptItems =>
          rw [keptItems] at items
          obtain ⟨added, others⟩ := itemsIn_of_append items
            (fun item mem => by simpa using (List.mem_filter.mp mem).2) own
          refine ⟨⟨catalog, .replaced list mem ⟨tenant, hash⟩ rfl (lists ▸ rows), added ▸ newItems,
            fun id different => ?_, ?_⟩, by simpa using ⟨list, mem, tenant, hash⟩⟩
          · rw [others id different, List.filter_filter, itemsIn]
            apply List.filter_congr
            intro item _
            by_cases same : item.readingListId = id
            · simp [same, different]
            · simp [same]
          · intro item itemMem
            rw [lists, rows]
            rw [items] at itemMem
            rcases List.mem_append.mp itemMem with old | new
            · obtain ⟨l, lMem, isList⟩ := owned item (List.mem_filter.mp old).1
              exact ⟨_, List.mem_map_of_mem lMem, (replaceList_id ..).trans isList⟩
            · exact ⟨_, List.mem_map_of_mem mem, (replaceList_id ..).trans (own item new).symm⟩

/-! ### The simulation -/

/-- The invariant of a history. -/
structure Tracked (hashing : Hashing) (entries : List Entry) (db : Database) : Prop where
  pairs : ∀ list ∈ db.readingLists.rows, ∃ e ∈ entries, ListFor hashing list (e.key hashing)
  lists : ∀ e ∈ entries, ∃ list ∈ db.readingLists.rows, ListFor hashing list (e.key hashing)
  contents : ∀ list ∈ db.readingLists.rows, ∀ key, ListFor hashing list key → ∀ first last,
    firstWrite (Entry.key hashing) entries key = some first →
      lastWrite (Entry.key hashing) entries key = some last →
        HoldsEntry hashing db list first last
  owned : ItemsOwned db

/-- A pair has one list. -/
theorem ListFor.list_eq {list list' : ReadingList} {key : Uuid × String}
    (mem : list ∈ db.readingLists.rows) (mem' : list' ∈ db.readingLists.rows)
    (isFor : ListFor hashing list key) (isFor' : ListFor hashing list' key) : list = list' :=
  db.readingLists.eq_of_clash (fun _ _ => ReadingList.Clash.symm) mem mem'
    (.inr ⟨isFor.1.trans isFor'.1.symm, isFor.2.trans isFor'.2.symm⟩)

/-- A list has one pair among those submitted. -/
theorem ListFor.key_eq {list : ReadingList} (free : NoCollision hashing entries) {e e' : Entry}
    (mem : e ∈ entries) (mem' : e' ∈ entries) (isFor : ListFor hashing list (e.key hashing))
    (isFor' : ListFor hashing list (e'.key hashing)) : e.key hashing = e'.key hashing :=
  Prod.ext (isFor.1.symm.trans isFor'.1)
    (free e mem e' mem' (isFor.2.symm.trans isFor'.2))

theorem NoCollision.of_append {more : List Entry} (free : NoCollision hashing (entries ++ more)) :
    NoCollision hashing entries :=
  fun e mem e' mem' => free e (List.mem_append_left _ mem) e' (List.mem_append_left _ mem')

theorem Tracked.represents (tracked : Tracked hashing entries db)
    (free : NoCollision hashing entries) : Represents hashing entries db where
  pairs list mem := by
    obtain ⟨e, eMem, isFor⟩ := tracked.pairs list mem
    refine ⟨e.key hashing, ⟨⟨e, eMem, rfl⟩, isFor⟩, ?_⟩
    rintro _ ⟨⟨e', eMem', rfl⟩, isFor'⟩
    exact ListFor.key_eq free eMem' eMem isFor' isFor
  lists e mem := by
    obtain ⟨list, listMem, isFor⟩ := tracked.lists e mem
    exact ⟨list, ⟨listMem, isFor⟩, fun list' ⟨mem', isFor'⟩ =>
      ListFor.list_eq mem' listMem isFor' isFor⟩
  contents := tracked.contents

theorem HoldsEntry.of_same {list : ReadingList} {first last : Entry}
    (holds : HoldsEntry hashing s list first last) (catalog : t.catalog = s.catalog)
    (items : itemsIn t list.id = itemsIn s list.id) : HoldsEntry hashing t list first last := by
  obtain ⟨id, hash, masked, stored⟩ := holds
  refine ⟨id, hash, masked, ?_⟩
  rw [items]
  exact List.Forall₂.imp (fun _ _ => ItemFor.of_catalog catalog) stored

/-- A list of another pair keeps its row. -/
theorem replaceList_of_other {list row : ReadingList} {submission : Submission}
    (other : row.id ≠ list.id) : replaceList (renamed hashing submission list) row = row :=
  if_neg other

theorem listFor_replaceList {list row : ReadingList} {key : Uuid × String} :
    ListFor hashing (replaceList list row) key ↔ ListFor hashing row key := by
  simp [ListFor]

/-- The items stand for the references in the new database. -/
theorem Effect.storedItems {listId : Uuid} (effect : Effect hashing entry s t listId)
    (columns : ∀ b ∈ s.catalog.books.rows, cut 50 b.olWorkKey = b.olWorkKey)
    (kept : entry.Kept s.catalog) :
    List.Forall₂ (ItemFor t entry) entry.submission.books.zipIdx (itemsIn t listId) :=
  List.Forall₂.imp (fun _ _ => ItemFor.of_catalog effect.catalog)
    (forall₂_of_stored columns kept effect.newItems)

/-- A first submission of a pair extends the history. -/
theorem Tracked.created {listId : Uuid} (tracked : Tracked hashing entries s)
    (free : NoCollision hashing (entries ++ [entry])) (effect : Effect hashing entry s t listId)
    (stored : List.Forall₂ (ItemFor t entry) entry.submission.books.zipIdx (itemsIn t listId))
    {new : ReadingList}
    (absent : ∀ l ∈ s.readingLists.rows, ¬ ListFor hashing l (entry.key hashing))
    (unused : ∀ l ∈ s.readingLists.rows, l.id ≠ listId)
    (rows : t.readingLists.rows = s.readingLists.rows ++ [new])
    (isNew : new.id = listId ∧ listId = entry.draws.listId ∧
      ListFor hashing new (entry.key hashing))
    (named : new.patronNameHash = hashPii hashing entry.submission.patronName ∧
      new.patronNameMasked = maskName entry.submission.patronName) :
    Tracked hashing (entries ++ [entry]) t := by
  have isLast : entry ∈ entries ++ [entry] := List.mem_append_right _ List.mem_cons_self
  obtain ⟨rfl, drawn, isFor⟩ := isNew
  have unwritten : ∀ e ∈ entries, e.key hashing ≠ entry.key hashing := by
    intro e mem same
    obtain ⟨list, listMem, listFor⟩ := tracked.lists e mem
    exact absent list listMem (same ▸ listFor)
  constructor
  case owned => exact effect.owned
  case pairs =>
    intro list mem
    rw [rows] at mem
    rcases List.mem_append.mp mem with old | last
    · obtain ⟨e, eMem, listFor⟩ := tracked.pairs list old
      exact ⟨e, List.mem_append_left _ eMem, listFor⟩
    · obtain rfl := List.mem_singleton.mp last
      exact ⟨entry, isLast, isFor⟩
  case lists =>
    intro e mem
    rw [rows]
    rcases List.mem_append.mp mem with old | last
    · obtain ⟨list, listMem, listFor⟩ := tracked.lists e old
      exact ⟨list, List.mem_append_left _ listMem, listFor⟩
    · obtain rfl := List.mem_singleton.mp last
      exact ⟨new, List.mem_append_right _ List.mem_cons_self, isFor⟩
  case contents =>
    intro list mem key listFor first last isFirst isLastWrite
    rw [rows] at mem
    rcases List.mem_append.mp mem with old | new'
    · have other : entry.key hashing ≠ key := fun same => absent list old (same ▸ listFor)
      rw [firstWrite_snoc_of_ne other] at isFirst
      rw [lastWrite_snoc_of_ne other] at isLastWrite
      exact (tracked.contents list old key listFor first last isFirst isLastWrite).of_same
        effect.catalog (effect.otherItems _ (unused list old))
    · obtain rfl := List.mem_singleton.mp new'
      obtain ⟨firstMem, rfl⟩ := mem_of_firstWrite isFirst
      have same := ListFor.key_eq free isLast firstMem isFor listFor
      rw [← same, firstWrite_snoc_of_new rfl unwritten] at isFirst
      rw [← same, lastWrite_snoc_of_eq rfl] at isLastWrite
      obtain rfl := Option.some.inj isFirst
      obtain rfl := Option.some.inj isLastWrite
      exact ⟨drawn, named.1, named.2, stored⟩

/-- A later submission of a pair extends the history. -/
theorem Tracked.replaced {listId : Uuid} (tracked : Tracked hashing entries s)
    (free : NoCollision hashing (entries ++ [entry])) (effect : Effect hashing entry s t listId)
    (stored : List.Forall₂ (ItemFor t entry) entry.submission.books.zipIdx (itemsIn t listId))
    {list : ReadingList} (mem : list ∈ s.readingLists.rows)
    (isFor : ListFor hashing list (entry.key hashing)) (isList : list.id = listId)
    (rows : t.readingLists.rows =
      s.readingLists.rows.map (replaceList (renamed hashing entry.submission list))) :
    Tracked hashing (entries ++ [entry]) t := by
  have isLast : entry ∈ entries ++ [entry] := List.mem_append_right _ List.mem_cons_self
  subst isList
  obtain ⟨e, eMem, eFor⟩ := tracked.pairs list mem
  have known := ListFor.key_eq free (List.mem_append_left _ eMem) isLast eFor isFor
  constructor
  case owned => exact effect.owned
  case pairs =>
    intro row rowMem
    rw [rows] at rowMem
    obtain ⟨old, oldMem, rfl⟩ := List.mem_map.mp rowMem
    obtain ⟨e', eMem', eFor'⟩ := tracked.pairs old oldMem
    exact ⟨e', List.mem_append_left _ eMem', listFor_replaceList.mpr eFor'⟩
  case lists =>
    intro e' mem'
    rw [rows]
    rcases List.mem_append.mp mem' with old | last
    · obtain ⟨row, rowMem, rowFor⟩ := tracked.lists e' old
      exact ⟨_, List.mem_map_of_mem rowMem, listFor_replaceList.mpr rowFor⟩
    · obtain rfl := List.mem_singleton.mp last
      exact ⟨_, List.mem_map_of_mem mem, listFor_replaceList.mpr isFor⟩
  case contents =>
    intro row rowMem key rowFor first last isFirst isLastWrite
    rw [rows] at rowMem
    obtain ⟨old, oldMem, rfl⟩ := List.mem_map.mp rowMem
    rw [listFor_replaceList] at rowFor
    by_cases same : old.id = list.id
    · obtain rfl : old = list :=
        s.readingLists.eq_of_clash (fun _ _ => ReadingList.Clash.symm) oldMem mem (.inl same)
      obtain ⟨firstMem, rfl⟩ := mem_of_firstWrite isFirst
      have sameKey := ListFor.key_eq free isLast firstMem isFor rowFor
      rw [← sameKey, firstWrite_snoc_of_exists ⟨e, eMem, known⟩] at isFirst
      rw [← sameKey, lastWrite_snoc_of_eq rfl] at isLastWrite
      obtain rfl := Option.some.inj isLastWrite
      obtain ⟨id, _⟩ := tracked.contents old oldMem _ isFor first _ isFirst
        (lastWrite_of_exists ⟨e, eMem, known⟩).choose_spec
      refine ⟨(replaceList_id ..).trans id, ?_, ?_, ?_⟩
      · exact congrArg ReadingList.patronNameHash (if_pos rfl)
      · exact congrArg ReadingList.patronNameMasked (if_pos rfl)
      · rw [replaceList_id]
        exact stored
    · have other : entry.key hashing ≠ key := by
        rintro rfl
        exact same (congrArg _ (ListFor.list_eq oldMem mem rowFor isFor))
      rw [firstWrite_snoc_of_ne other] at isFirst
      rw [lastWrite_snoc_of_ne other] at isLastWrite
      rw [replaceList_of_other same]
      exact (tracked.contents old oldMem key rowFor first last isFirst isLastWrite).of_same
        effect.catalog (effect.otherItems _ same)

/-- A submission extends the history. -/
theorem Tracked.step {listId : Uuid} (tracked : Tracked hashing entries s)
    (free : NoCollision hashing (entries ++ [entry])) (effect : Effect hashing entry s t listId)
    (stored : List.Forall₂ (ItemFor t entry) entry.submission.books.zipIdx (itemsIn t listId)) :
    Tracked hashing (entries ++ [entry]) t := by
  cases effect.lists with
  | created new absent unused rows isNew named =>
      exact tracked.created free effect stored absent unused rows isNew named
  | replaced list mem isFor isList rows =>
      exact tracked.replaced free effect stored mem isFor isList rows

/-- The lists of other pairs keep their rows and their items. -/
def KeepsOthers (hashing : Hashing) (key : Uuid × String) (s t : Database) : Prop :=
  ∀ list, ¬ ListFor hashing list key →
    (list ∈ t.readingLists.rows ↔ list ∈ s.readingLists.rows) ∧
      (list ∈ s.readingLists.rows → itemsIn t list.id = itemsIn s list.id)

theorem Effect.keepsOthers {listId : Uuid} (effect : Effect hashing entry s t listId) :
    KeepsOthers hashing (entry.key hashing) s t := by
  intro list other
  cases effect.lists with
  | created new absent unused rows isNew named =>
      refine ⟨?_, fun mem => effect.otherItems _ (unused list mem)⟩
      rw [rows, List.mem_append, List.mem_singleton]
      refine ⟨fun mem => mem.resolve_right ?_, .inl⟩
      rintro rfl
      exact other isNew.2.2
  | replaced found mem isFor isList rows =>
      subst isList
      -- a row with the id of the replaced list is a row of its pair
      have apart {row : ReadingList} (rowMem : row ∈ s.readingLists.rows)
          (rowOther : ¬ ListFor hashing row (entry.key hashing)) : row.id ≠ found.id := by
        intro same
        obtain rfl : row = found :=
          s.readingLists.eq_of_clash (fun _ _ => ReadingList.Clash.symm) rowMem mem (.inl same)
        exact rowOther isFor
      refine ⟨?_, fun listMem => effect.otherItems _ (apart listMem other)⟩
      rw [rows, List.mem_map]
      constructor
      · rintro ⟨row, rowMem, rfl⟩
        rw [listFor_replaceList] at other
        rwa [replaceList_of_other (apart rowMem other)]
      · intro listMem
        exact ⟨list, listMem, replaceList_of_other (apart listMem other)⟩

theorem tracked_run {start : Database} {labels : List (Entry × ReadingListResponse)}
    (noLists : start.readingLists.rows = []) (noItems : start.readingListItems.rows = [])
    (columns : ∀ b ∈ start.catalog.books.rows, cut 50 b.olWorkKey = b.olWorkKey)
    (run : Run (Submits hashing) start labels s)
    (free : NoCollision hashing (labels.map Prod.fst))
    (kept : ∀ entry ∈ labels.map Prod.fst, entry.Kept start.catalog) :
    Tracked hashing (labels.map Prod.fst) s ∧ s.catalog = start.catalog := by
  refine run.invariant_trace
    (fun labels s => NoCollision hashing (labels.map Prod.fst) →
      (∀ entry ∈ labels.map Prod.fst, entry.Kept start.catalog) →
      Tracked hashing (labels.map Prod.fst) s ∧ s.catalog = start.catalog) ?_ ?_ free kept
  · intro labels s label t tracked submits free kept
    rw [List.map_append] at free kept ⊢
    obtain ⟨keptBefore, keptNow⟩ := List.forall_mem_append.mp kept
    obtain ⟨tracked, same⟩ := tracked free.of_append keptBefore
    have effect := (submits_effect tracked.owned submits).1
    have stored := effect.storedItems (same ▸ columns)
      (same ▸ List.forall_mem_singleton.mp keptNow)
    exact ⟨tracked.step free effect stored, effect.catalog.trans same⟩
  · intro _ _
    refine ⟨?_, rfl⟩
    constructor
    · rw [noLists]
      exact nofun
    · exact nofun
    · exact fun _ _ _ _ _ _ => nofun
    · rw [ItemsOwned, noItems]
      exact nofun

/-- Reading lists refine a last-write-wins map: the tables represent the history of the
submissions made, a submission says whether its pair was there before, and it leaves
the lists of the other pairs alone. The columns keep the identifiers submitted. -/
theorem reading_lists_refine {start : Database} {labels : List (Entry × ReadingListResponse)}
    (noLists : start.readingLists.rows = []) (noItems : start.readingListItems.rows = [])
    (columns : ∀ b ∈ start.catalog.books.rows, cut 50 b.olWorkKey = b.olWorkKey)
    (run : Run (Submits hashing) start labels s)
    (free : NoCollision hashing (labels.map Prod.fst))
    (kept : ∀ entry ∈ labels.map Prod.fst, entry.Kept start.catalog) :
    Represents hashing (labels.map Prod.fst) s ∧
      ∀ entry response t, Submits hashing s (entry, response) t →
        NoCollision hashing (labels.map Prod.fst ++ [entry]) →
          (response.isUpdate ↔
            ∃ e ∈ labels.map Prod.fst, e.key hashing = entry.key hashing) ∧
          KeepsOthers hashing (entry.key hashing) s t := by
  obtain ⟨tracked, _⟩ := tracked_run noLists noItems columns run free kept
  refine ⟨tracked.represents free, fun entry response t submits freeNow => ?_⟩
  obtain ⟨effect, update⟩ := submits_effect tracked.owned submits
  refine ⟨update.trans ⟨?_, ?_⟩, effect.keepsOthers⟩
  · rintro ⟨list, mem, isFor⟩
    obtain ⟨e, eMem, eFor⟩ := tracked.pairs list mem
    exact ⟨e, eMem, ListFor.key_eq freeNow (List.mem_append_left _ eMem)
      (List.mem_append_right _ List.mem_cons_self) eFor isFor⟩
  · rintro ⟨e, eMem, same⟩
    obtain ⟨list, mem, isFor⟩ := tracked.lists e eMem
    exact ⟨list, mem, same ▸ isFor⟩

theorem submits_of_put {response : ReadingListResponse}
    (put : putSubmission hashing entry.tenantId entry.submission entry.draws entry.answers s =
      some (response, t)) : Submits hashing s (entry, response) t :=
  commits_submit.returns_iff.mpr ⟨t, put, rfl⟩

/-- Bob submits one book that Open Library knows. -/
def bobSubmits (patronName workKey : String) (key : workKey ≠ "") (itemId : Uuid) : Entry where
  tenantId := 1
  submission := (oneBook patronName workKey key itemId).submission
  draws := ⟨7, fun _ => itemId⟩
  answers _ := ⟨.ok none, .ok ⟨workKey, some "Title", [], none, none, [], none⟩⟩

theorem kept_bobSubmits {patronName workKey : String} {key : workKey ≠ ""} {itemId : Uuid}
    (c : Catalog) (short : workKey.toList.length ≤ 50) :
    (bobSubmits patronName workKey key itemId).Kept c := by
  intro ref mem
  obtain rfl := List.mem_singleton.mp mem
  have whole : (some workKey).map (cut 50) = some workKey :=
    congrArg some (cut_of_length_le short)
  refine ⟨rfl, fun _ => whole, fun _ tried is _ _ => ?_⟩
  obtain rfl : some workKey = tried := by
    have asked : truthy (some workKey) := by simpa [truthy] using key
    rw [keyTried, if_neg (by simp [asked])] at is
    exact Option.some.inj is
  exact whole

/-- Bob submits as Bob, then as Rob. -/
theorem bob_resubmits : ∃ first second s t,
    Represents plainHashing [bobSubmits "Bob" "OL2W" (by simp) 20] s ∧
      Submits plainHashing s (bobSubmits "Rob" "OL3W" (by simp) 30, second) t ∧
      Submits plainHashing .empty (bobSubmits "Bob" "OL2W" (by simp) 20, first) s ∧
      second.isUpdate := by
  let bob := bobSubmits "Bob" "OL2W" (by simp) 20
  let rob := bobSubmits "Rob" "OL3W" (by simp) 30
  have both : (do
      let stored ← putSubmission plainHashing 1 bob.submission bob.draws bob.answers .empty
      putSubmission plainHashing 1 rob.submission rob.draws rob.answers stored.2).isSome := by
    decide +kernel
  obtain ⟨⟨second, t⟩, put⟩ := Option.isSome_iff_exists.mp both
  obtain ⟨⟨first, s⟩, putBob, putRob⟩ := Option.bind_eq_some_iff.mp put
  have bobs : Submits plainHashing .empty (bob, first) s := submits_of_put putBob
  have robs : Submits plainHashing s (rob, second) t := submits_of_put putRob
  have free : NoCollision plainHashing ([bob] ++ [rob]) := fun _ _ _ _ same => same
  obtain ⟨represents, later⟩ :=
    @reading_lists_refine plainHashing s .empty [(bob, first)] rfl rfl nofun (.cons bobs (.nil s))
      free.of_append (List.forall_mem_singleton.mpr (kept_bobSubmits _ (by decide)))
  refine ⟨first, second, s, t, represents, robs, bobs, (later rob second t robs free).1.mpr ?_⟩
  exact ⟨bob, List.mem_cons_self, rfl⟩

/-- Bob copies an ISBN with the space that follows it; Open Library is unreachable. -/
def bobCopies : Entry where
  tenantId := 1
  submission :=
    { patronName := "Bob"
      email := "bob@example.com"
      books := [⟨none, some "ISBN 978-0-140328721 ", .inr (by decide)⟩]
      nonempty := by simp }
  draws := ⟨7, fun i => 20 + i⟩
  answers _ := ⟨.error (.openLibraryError ""), .error (.openLibraryError "")⟩

/-- The column of the ISBN cuts the space off, and the item has another ISBN than the one
submitted. -/
theorem copied_space_is_cut : ∃ response t,
    Run (Submits plainHashing) .empty [(bobCopies, response)] t ∧
      t.readingListItems.rows = [⟨20, 7, none, some "ISBN 978-0-140328721", none, false⟩] ∧
      ¬ Represents plainHashing [bobCopies] t := by
  have put : (putSubmission plainHashing 1 bobCopies.submission bobCopies.draws bobCopies.answers
      .empty).map (fun stored => (stored.2.readingLists.rows, stored.2.readingListItems.rows)) =
      some ([⟨7, 1, "Bob", "bob@example.com", "B**", "b*b@e*****e.com"⟩],
        [⟨20, 7, none, some "ISBN 978-0-140328721", none, false⟩]) := by
    decide +kernel
  obtain ⟨⟨response, t⟩, put, rows⟩ := Option.map_eq_some_iff.mp put
  obtain ⟨lists, items⟩ := Prod.mk.inj rows
  refine ⟨response, t, .cons (submits_of_put put) (.nil t), items, fun represents => ?_⟩
  have mem : _ ∈ t.readingLists.rows := lists ▸ List.mem_cons_self
  have first : firstWrite (Entry.key plainHashing) ([] ++ [bobCopies])
      (bobCopies.key plainHashing) = some bobCopies := firstWrite_snoc_of_new rfl nofun
  have last : lastWrite (Entry.key plainHashing) ([] ++ [bobCopies])
      (bobCopies.key plainHashing) = some bobCopies := lastWrite_snoc_of_eq rfl
  obtain ⟨_, _, _, stored⟩ := represents.contents _ mem (bobCopies.key plainHashing)
    ⟨rfl, by decide +kernel⟩ _ _ first last
  rw [itemsIn, items] at stored
  cases stored with
  | cons item _ =>
      obtain ⟨_, _, _, isbn, _⟩ := item
      exact absurd isbn (by decide)

end TenantLibrary.ReadingLists
