import Mathlib.Data.Finset.Card
import Mathlib.Data.List.Induction
import TenantLibrary.Books.Service
import TenantLibrary.Ingestion.Enrichment
import TenantLibrary.Ingestion.Representation

/-!
The cap on the subjects of a book.

An ingestion takes at most 50 subjects of each work it stores, and a book keeps the
subjects of all works ever stored under its key. `capped_iff` says that in a history of
ingestions every book has at most 50 subjects as long as no ingestion brings a book, with
the subjects it has, more than that.
-/

namespace TenantLibrary.Ingestion

open TenantLibrary.Lib TenantLibrary.OpenLibrary TenantLibrary.Store

open TenantLibrary.Books (subjectsOf)

/-! ### What a work brings -/

/-- What the works of a batch bring to the book under a key: 50 subjects each. A work comes
to the book under its key as the column cuts it, and so do its subjects. -/
def incomingSubjects (works : List WorkInput) (key : String) : List String :=
  (works.filter fun work => cut 50 work.result.workKey = key && work.enriches).flatMap fun work =>
    (work.subjects.take 50).map (cut 500)

/-- The subjects of the tenant's book under a key. -/
def storedSubjects (c : Catalog) (tenantId : Uuid) (key : String) : List String :=
  match findBook tenantId key c with
  | none => []
  | some book => subjectsOf c book.id

/-! ### What storing a work adds -/

section Stored

variable {refuse : Refusal} {tenantId bookId newId : Uuid} {record : WorkRecord} {draws : Draws}
  {c after : Catalog}

/-- A book that is there has the key as it is cut. -/
theorem HoldsBook.hasCut {olWorkKey : String} (holds : HoldsBook bookId tenantId olWorkKey c)
    (whole : c.Whole) : HasBook bookId tenantId (cut 50 olWorkKey) c := by
  rcases holds with has | ⟨_, has⟩
  · obtain ⟨b, mem, _, _, rfl⟩ := hasBook_iff.mp has
    rwa [(whole.books b mem).olWorkKey]
  · exact has

theorem mem_putSubject {subject : String} {result : Unit} (whole : c.Whole)
    (stored : putSubject refuse bookId subject c = .ok (result, after)) (row : BookSubject) :
    row ∈ after.bookSubjects.rows ↔
      row ∈ c.bookSubjects.rows ∨ row = ⟨bookId, cut 500 subject⟩ := by
  rcases putSubject_cases stored with ⟨present, rfl⟩ | ⟨_, _, bookSubjects, inserted, rfl⟩
  · have kept : cut 500 subject = subject := whole.subjects _ present
    rw [kept]
    refine ⟨.inl, ?_⟩
    rintro (old | rfl)
    · exact old
    · exact present
  · rw [(Table.insert_eq_some.mp inserted).2, List.mem_append, List.mem_singleton]

/-- The loop over the subjects adds their rows and no others. -/
theorem mem_putSubjects {subjects : List String} {result : PUnit} (whole : c.Whole)
    (stored : subjects.forM (putSubject refuse bookId) c = .ok (result, after))
    (row : BookSubject) :
    row ∈ after.bookSubjects.rows ↔
      row ∈ c.bookSubjects.rows ∨ row.bookId = bookId ∧ row.subject ∈ subjects.map (cut 500) := by
  induction subjects generalizing c with
  | nil =>
      obtain rfl : c = after := by simpa using Except.ok.inj stored
      simp
  | cons subject rest ih =>
      obtain ⟨_, middle, first, remaining⟩ := bind_run_eq_ok.mp stored
      have same : row = ⟨bookId, cut 500 subject⟩ ↔
          row.bookId = bookId ∧ row.subject = cut 500 subject := by
        cases row
        simp
      rw [ih (putSubject_keeps Catalog.Whole.send whole first) remaining,
        mem_putSubject whole first, same,
        List.map_cons, List.mem_cons, and_or_left, or_assoc]

/-- Storing a work adds the rows of at most 50 subjects, for the book under its key. -/
theorem mem_putRecord {result : Unit} (whole : c.Whole)
    (stored : putRecord refuse tenantId record draws c = .ok (result, after)) :
    ∃ bookId, HasBook bookId tenantId (cut 50 record.workKey) after ∧ Grows c after ∧
      ∀ row, row ∈ after.bookSubjects.rows ↔ row ∈ c.bookSubjects.rows ∨
        row.bookId = bookId ∧ row.subject ∈ (record.subjects.take 50).map (cut 500) := by
  obtain ⟨bookId, middle, put, _, grows, holds⟩ := putRecord_holds stored
  have wholeAfter := putRecord_keeps Catalog.Whole.send whole stored
  refine ⟨bookId, holds.book.hasCut wholeAfter, grows, fun row => ?_⟩
  obtain ⟨bookId', middle', put', remaining⟩ := bind_run_eq_ok.mp stored
  obtain ⟨rfl, rfl⟩ := Prod.mk.inj (Except.ok.inj (put.symm.trans put'))
  obtain ⟨_, linked, authors, subjects⟩ := bind_run_eq_ok.mp remaining
  have kept := forM_keeps Catalog.bookSubjects (fun _ _ _ _ => bookSubjects_putAuthorCall) authors
  have wholeThen := forM_invariant
    (fun _ _ _ _ => putAuthorCall_keeps Catalog.Whole.send)
    (putBook_keeps Catalog.Whole.send whole put) authors
  rw [mem_putSubjects wholeThen subjects, kept, bookSubjects_putBook put]

/-! ### Subjects under a key -/

/-- The rows of subjects belong to books. -/
def SubjectsOwned (c : Catalog) : Prop :=
  ∀ row ∈ c.bookSubjects.rows, ∃ tenantId key, HasBook row.bookId tenantId key c

theorem HasBook.unique {tenant tenant' : Uuid} {key key' : String}
    (has : HasBook bookId tenant key c) (has' : HasBook bookId tenant' key' c) :
    tenant = tenant' ∧ key = key' := by
  obtain ⟨book, mem, same, rfl, rfl⟩ := hasBook_iff.mp has
  obtain ⟨book', mem', same', rfl, rfl⟩ := hasBook_iff.mp has'
  obtain rfl := c.books.eq_of_clash (fun _ _ => Book.Clash.symm) mem mem'
    (.inl (same.trans same'.symm))
  exact ⟨rfl, rfl⟩

theorem mem_subjectsOf {subject : String} :
    subject ∈ subjectsOf c bookId ↔ HasSubject bookId subject c := by
  simp only [subjectsOf, HasSubject, List.mem_map, List.mem_filter, decide_eq_true_eq]
  constructor
  · rintro ⟨row, ⟨mem, rfl⟩, rfl⟩
    exact mem
  · intro mem
    exact ⟨_, ⟨mem, rfl⟩, rfl⟩

theorem mem_storedSubjects {key subject : String} :
    subject ∈ storedSubjects c tenantId key ↔
      ∃ bookId, HasBook bookId tenantId key c ∧ HasSubject bookId subject c := by
  unfold storedSubjects
  cases found : findBook tenantId key c with
  | none =>
      simp only [List.not_mem_nil, false_iff]
      rintro ⟨bookId, has, _⟩
      obtain ⟨book, same, _⟩ := hasBook_iff_find.mp has
      cases found.symm.trans same
  | some book =>
      dsimp only
      rw [mem_subjectsOf]
      constructor
      · exact fun stored => ⟨book.id, hasBook_iff_find.mpr ⟨book, found, rfl⟩, stored⟩
      · rintro ⟨bookId, has, stored⟩
        obtain ⟨book', same, rfl⟩ := hasBook_iff_find.mp has
        obtain rfl := Option.some.inj (found.symm.trans same)
        exact stored

/-- The subjects of a stored work are added to those under its key; the subjects under
every other key stay. -/
theorem storedSubjects_putRecord {result : Unit} (owned : SubjectsOwned c) (whole : c.Whole)
    (stored : putRecord refuse tenantId record draws c = .ok (result, after)) :
    SubjectsOwned after ∧ after.Whole ∧ ∀ tenant key subject,
      subject ∈ storedSubjects after tenant key ↔ subject ∈ storedSubjects c tenant key ∨
        tenant = tenantId ∧ key = cut 50 record.workKey ∧
          subject ∈ (record.subjects.take 50).map (cut 500) := by
  obtain ⟨bookId, has, grows, rows⟩ := mem_putRecord whole stored
  refine ⟨?_, putRecord_keeps Catalog.Whole.send whole stored, ?_⟩
  · intro row mem
    rcases (rows row).mp mem with old | ⟨rfl, _⟩
    · obtain ⟨tenant, key, owner⟩ := owned row old
      exact ⟨tenant, key, owner.mono grows⟩
    · exact ⟨tenantId, cut 50 record.workKey, has⟩
  · intro tenant key subject
    rw [mem_storedSubjects, mem_storedSubjects]
    constructor
    · rintro ⟨id, hasNow, subjected⟩
      rcases (rows _).mp subjected with old | ⟨rfl, taken⟩
      · -- the book of an old row was there before, under the same key
        obtain ⟨tenant', key', owner⟩ := owned _ old
        obtain ⟨rfl, rfl⟩ := HasBook.unique hasNow (owner.mono grows)
        exact .inl ⟨id, owner, old⟩
      · obtain ⟨rfl, rfl⟩ := HasBook.unique hasNow has
        exact .inr ⟨rfl, rfl, taken⟩
    · rintro (⟨id, owner, old⟩ | ⟨rfl, rfl, taken⟩)
      · exact ⟨id, owner.mono grows, old.mono grows⟩
      · exact ⟨bookId, has, (rows _).mpr (.inr ⟨rfl, taken⟩)⟩

end Stored

/-! ### What a batch adds -/

section Batch

variable {tenantId : Uuid} {work : WorkInput} {works : List WorkInput} {c after : Catalog}

theorem putWork_eq_stored (stored : putWork tenantId work c = .stored after) :
    work.enriches ∧ ∃ record result, putRecord work.refuse tenantId record work.draws c =
        .ok (result, after) ∧
      record.workKey = work.result.workKey ∧ record.subjects = work.subjects := by
  have total := enrich_total work
  unfold putWork at stored
  split at total
  case isTrue enriches =>
    obtain ⟨record, enriched, key, subjects⟩ := total
    rw [enriched] at stored
    dsimp only at stored
    split at stored
    case h_1 result _ put =>
      obtain rfl := Outcome.stored.inj stored
      exact ⟨enriches, record, result, put, key, subjects⟩
    case h_2 => cases stored
  case isFalse =>
    obtain ⟨failure, enriched⟩ := total
    rw [enriched] at stored
    cases stored

theorem putWork_eq_failed {failure : Failure} (failed : putWork tenantId work c = .failed failure) :
    ¬ work.enriches := by
  intro enriches
  have total := enrich_total work
  rw [if_pos enriches] at total
  obtain ⟨record, enriched, _⟩ := total
  unfold putWork at failed
  rw [enriched] at failed
  dsimp only at failed
  split at failed <;> cases failed

theorem mem_incomingSubjects_cons {key subject : String} :
    subject ∈ incomingSubjects (work :: works) key ↔
      (work.enriches ∧ key = cut 50 work.result.workKey ∧
        subject ∈ (work.subjects.take 50).map (cut 500)) ∨
        subject ∈ incomingSubjects works key := by
  simp only [incomingSubjects, List.mem_flatMap, List.mem_filter, List.mem_cons, or_and_right,
    exists_or, Bool.and_eq_true, decide_eq_true_eq, and_assoc, exists_eq_left]
  refine or_congr_left ?_
  rw [@eq_comm _ key]
  exact and_left_comm

/-- A batch that is accepted adds what its works bring. -/
theorem storedSubjects_batch (owned : SubjectsOwned c) (whole : c.Whole)
    (accepted : NoRefusal tenantId works c) :
    SubjectsOwned (storedInIsolation tenantId works c).1 ∧
    (storedInIsolation tenantId works c).1.Whole ∧ ∀ tenant key subject,
      subject ∈ storedSubjects (storedInIsolation tenantId works c).1 tenant key ↔
        subject ∈ storedSubjects c tenant key ∨
          tenant = tenantId ∧ subject ∈ incomingSubjects works key := by
  induction works generalizing c with
  | nil =>
      exact ⟨owned, whole, fun tenant key subject => by simp [storedInIsolation, incomingSubjects]⟩
  | cons work rest ih =>
      rw [NoRefusal] at accepted
      rw [storedInIsolation]
      cases outcome : putWork tenantId work c with
      | stored after =>
          rw [outcome] at accepted
          obtain ⟨enriches, record, result, put, key, subjects⟩ := putWork_eq_stored outcome
          obtain ⟨ownedThen, wholeThen, added⟩ := storedSubjects_putRecord owned whole put
          obtain ⟨ownedLast, wholeLast, later⟩ := ih ownedThen wholeThen accepted
          refine ⟨ownedLast, wholeLast, fun tenant key' subject => ?_⟩
          rw [later, added, mem_incomingSubjects_cons, key, subjects]
          tauto
      | failed failure =>
          rw [outcome] at accepted
          have skipped := putWork_eq_failed outcome
          obtain ⟨ownedLast, wholeLast, later⟩ := ih owned whole accepted
          refine ⟨ownedLast, wholeLast, fun tenant key subject => ?_⟩
          rw [later, mem_incomingSubjects_cons]
          tauto
      | refused error =>
          rw [outcome] at accepted
          exact accepted.elim

end Batch

/-! ### Histories of ingestions -/

/-- A call of `ingest`: its arguments, what the environment answers, and `str`. -/
structure IngestCall where
  str : SessionError DbError Failure → String
  search : Search
  request : IngestRequest

/-- What a call, in a session of its own, leaves committed. -/
def IngestCall.run (call : IngestCall) (db : Database) : Database :=
  ((ingest call.str call.search call.request).runOn (.opened db)).2.committed

/-- The database after calls one after the other, however they end. -/
def databaseAfter (calls : List IngestCall) : Database :=
  calls.foldl (fun db call => call.run db) .empty

/-- Every book has at most 50 subjects. -/
def Capped (db : Database) : Prop :=
  ∀ b ∈ db.catalog.books.rows, (subjectsOf db.catalog b.id).length ≤ 50

instance (db : Database) : Decidable (Capped db) :=
  inferInstanceAs
    (Decidable (∀ b ∈ db.catalog.books.rows, (subjectsOf db.catalog b.id).length ≤ 50))

/-- The call finds these works, the id of its log is not taken, and the database refuses
no row: its batch is committed. -/
structure IngestCall.Stores (call : IngestCall) (db : Database) (works : List WorkInput) :
    Prop where
  found : call.search.run call.request.queryType = .ok works
  fresh : ∀ log ∈ db.logs.rows, log.id ≠ call.request.logId
  accepted : NoRefusal call.request.tenantId works db.catalog

/-- What the call stores of subjects, with what is stored, is within the cap. -/
def IngestCall.WithinCap (call : IngestCall) (db : Database) : Prop :=
  ∀ works, call.Stores db works → ∀ key,
    (storedSubjects db.catalog call.request.tenantId key ++
      incomingSubjects works key).toFinset.card ≤ 50

section Histories

variable {db : Database} {call : IngestCall}

/-- The catalog a call leaves. -/
theorem catalog_run (call : IngestCall) (db : Database) :
    (∃ works, call.Stores db works ∧
      (call.run db).catalog = (storedInIsolation call.request.tenantId works db.catalog).1) ∨
    (∀ works, ¬ call.Stores db works) ∧ (call.run db).catalog = db.catalog := by
  by_cases fresh : ∀ log ∈ db.logs.rows, log.id ≠ call.request.logId
  case neg =>
    have taken := runOn_ingest_taken call.str call.search call.request db fresh
    exact .inr ⟨fun works stores => fresh stores.fresh, by rw [IngestCall.run, taken]; rfl⟩
  case pos =>
    cases found : call.search.run call.request.queryType with
    | error failure =>
        obtain ⟨log, after, ran, _, kept, _⟩ :=
          runOn_ingest_searchFailed call.str call.search call.request db found fresh
        refine .inr ⟨fun works stores => ?_, by rw [IngestCall.run, ran]; exact kept⟩
        cases found.symm.trans stores.found
    | ok works =>
        by_cases accepted : NoRefusal call.request.tenantId works db.catalog
        · obtain ⟨log, after, ran, _, stored, _⟩ :=
            runOn_ingest_accepted call.str call.search call.request db found fresh accepted
          exact .inl ⟨works, ⟨found, fresh, accepted⟩, by rw [IngestCall.run, ran]; exact stored⟩
        · obtain ⟨s, ran, kept, _⟩ :=
            runOn_ingest_refused call.str call.search call.request db found fresh accepted
          refine .inr ⟨fun other stores => ?_, by rw [IngestCall.run, ran, kept]⟩
          obtain rfl := Except.ok.inj (found.symm.trans stores.found)
          exact accepted stores.accepted

theorem nodup_subjectsOf (c : Catalog) (bookId : Uuid) : (subjectsOf c bookId).Nodup := by
  have rows : c.bookSubjects.rows.Nodup := c.bookSubjects.distinct
  apply (rows.filter _).map_on
  intro row mem row' mem' same
  have book := of_decide_eq_true (List.mem_filter.mp mem).2
  have book' := of_decide_eq_true (List.mem_filter.mp mem').2
  cases row
  cases row'
  simp_all

theorem capped_iff_keys :
    Capped db ↔ ∀ tenantId key, (storedSubjects db.catalog tenantId key).toFinset.card ≤ 50 := by
  have counted (bookId : Uuid) : (subjectsOf db.catalog bookId).toFinset.card =
      (subjectsOf db.catalog bookId).length :=
    List.toFinset_card_of_nodup (nodup_subjectsOf _ _)
  constructor
  · intro capped tenantId key
    unfold storedSubjects
    split
    case h_1 => simp
    case h_2 book found =>
      rw [counted]
      exact capped book (findBook_eq_some.mp found).1
  · intro keys b mem
    have found : findBook b.tenantId b.olWorkKey db.catalog = some b :=
      findBook_eq_some.mpr ⟨mem, rfl, rfl⟩
    have under := keys b.tenantId b.olWorkKey
    rw [storedSubjects, found] at under
    exact (counted b.id).symm.trans_le under

theorem owned_run (owned : SubjectsOwned db.catalog) (whole : db.catalog.Whole) :
    SubjectsOwned (call.run db).catalog ∧ (call.run db).catalog.Whole := by
  rcases catalog_run call db with ⟨works, stores, catalog⟩ | ⟨_, catalog⟩
  · obtain ⟨ownedNow, wholeNow, _⟩ := storedSubjects_batch owned whole stores.accepted
    exact catalog ▸ ⟨ownedNow, wholeNow⟩
  · exact catalog ▸ ⟨owned, whole⟩

/-- One call keeps the books capped exactly when it stays within the cap. -/
theorem capped_run_iff (owned : SubjectsOwned db.catalog) (whole : db.catalog.Whole)
    (capped : Capped db) : Capped (call.run db) ↔ call.WithinCap db := by
  have before := capped_iff_keys.mp capped
  rcases catalog_run call db with ⟨works, stores, catalog⟩ | ⟨idle, catalog⟩
  · have added := (storedSubjects_batch owned whole stores.accepted).2.2
    have under (key : String) :
        (storedSubjects (call.run db).catalog call.request.tenantId key).toFinset =
          (storedSubjects db.catalog call.request.tenantId key ++
            incomingSubjects works key).toFinset := by
      ext subject
      rw [List.mem_toFinset, List.mem_toFinset, catalog, added, List.mem_append]
      simp
    have beside {tenantId : Uuid} (other : tenantId ≠ call.request.tenantId) (key : String) :
        (storedSubjects (call.run db).catalog tenantId key).toFinset =
          (storedSubjects db.catalog tenantId key).toFinset := by
      ext subject
      rw [List.mem_toFinset, List.mem_toFinset, catalog, added]
      simp [other]
    rw [capped_iff_keys]
    constructor
    · intro keys works' stores' key
      obtain rfl := Except.ok.inj (stores.found.symm.trans stores'.found)
      rw [← under]
      exact keys _ key
    · intro within tenantId key
      by_cases own : tenantId = call.request.tenantId
      · rw [own, under]
        exact within works stores key
      · rw [beside own]
        exact before tenantId key
  · refine iff_of_true ?_ fun works stores => absurd stores (idle works)
    rw [capped_iff_keys, catalog]
    exact before

theorem databaseAfter_concat (calls : List IngestCall) (call : IngestCall) :
    databaseAfter (calls ++ [call]) = call.run (databaseAfter calls) := by
  simp [databaseAfter]

theorem owned_databaseAfter (calls : List IngestCall) :
    SubjectsOwned (databaseAfter calls).catalog ∧ (databaseAfter calls).catalog.Whole := by
  induction calls using List.reverseRecOn with
  | nil => exact ⟨nofun, Catalog.whole_empty⟩
  | append_singleton calls call ih =>
      rw [databaseAfter_concat]
      exact owned_run ih.1 ih.2

end Histories

/-- In a history of ingestions every database reached is capped exactly when every call
stays within the cap. -/
theorem capped_iff (calls : List IngestCall) :
    (∀ before, before <+: calls → Capped (databaseAfter before)) ↔
      ∀ before call, before ++ [call] <+: calls → call.WithinCap (databaseAfter before) := by
  constructor
  · intro capped before call reached
    have capBefore := capped before ((List.prefix_append before [call]).trans reached)
    have capAfter := capped _ reached
    rw [databaseAfter_concat] at capAfter
    obtain ⟨owned, whole⟩ := owned_databaseAfter before
    exact (capped_run_iff owned whole capBefore).mp capAfter
  · intro within before
    induction before using List.reverseRecOn with
    | nil => exact fun _ => nofun
    | append_singleton before call ih =>
        intro reached
        have capBefore := ih ((List.prefix_append before [call]).trans reached)
        rw [databaseAfter_concat]
        obtain ⟨owned, whole⟩ := owned_databaseAfter before
        exact (capped_run_iff owned whole capBefore).mpr (within before call reached)

/-- An ingestion that finds one work, always the same, with these subjects. -/
def refreshing (logId : Uuid) (subjects : List String) : IngestCall :=
  let work := plainWork "OL1W" (some "One") 10
  { str := fun _ => ""
    search := searchFinding [{ work with result := { work.result with subjects } }]
    request := { sampleRequest with logId } }

/-- The work is found with 50 subjects, and later with another one. -/
def twoRefreshes : List IngestCall :=
  [refreshing 99 ((List.range 50).map Nat.repr), refreshing 100 ["50"]]

theorem refreshes_exceed_cap : ¬ Capped (databaseAfter twoRefreshes) := by decide +kernel

end TenantLibrary.Ingestion
