import TenantLibrary.Ingestion.JobTask
import TenantLibrary.ReadingLists.Service
import TenantLibrary.Tenancy.Partition

/-!
The services stay on the rows of their tenant.

Every program of a tenant is local to the tenant's share. The queries either ask for the
tenant or for an identifier that the tenant owns; the writes have identifiers drawn for
the tenant or read from its rows.
-/

namespace TenantLibrary.Tenancy

open TenantLibrary.Lib TenantLibrary.Lib.Share TenantLibrary.OpenLibrary TenantLibrary.Store
  TenantLibrary.Ingestion TenantLibrary.ReadingLists

variable {owner : Uuid → Uuid} {tenantId : Uuid} {before : Database} {refuse : Refusal}

/-! ### Queries -/

/-- A query that selects only rows of the tenant finds them among the tenant's rows. -/
theorem select_filter {α : Type} {rows : List α} {keep condition : α → Bool}
    (near : ∀ a ∈ rows, condition a = true → keep a = true) :
    (rows.filter keep).filter condition = rows.filter condition := by
  rw [List.filter_filter]
  apply List.filter_congr
  intro a mem
  cases holds : condition a with
  | false => rfl
  | true => rw [near a mem holds, Bool.and_true]

/-- The tenant's books with some property. -/
theorem books_seen {db : Database} (sound : Partitioned owner db) (condition : Book → Bool) :
    ((restrict owner tenantId db).catalog.books.rows.filter fun b =>
        b.tenantId = tenantId && condition b) =
      db.catalog.books.rows.filter fun b => b.tenantId = tenantId && condition b := by
  refine select_filter fun b mem holds => decide_eq_true ?_
  rw [Bool.and_eq_true, decide_eq_true_eq] at holds
  exact (sound.catalog.books b mem).trans holds.1

theorem authors_seen {db : Database} (sound : Partitioned owner db) (condition : Author → Bool) :
    ((restrict owner tenantId db).catalog.authors.rows.filter fun a =>
        a.tenantId = tenantId && condition a) =
      db.catalog.authors.rows.filter fun a => a.tenantId = tenantId && condition a := by
  refine select_filter fun a mem holds => decide_eq_true ?_
  rw [Bool.and_eq_true, decide_eq_true_eq] at holds
  exact (sound.catalog.authors a mem).trans holds.1

theorem lists_seen {db : Database} (sound : Partitioned owner db)
    (condition : ReadingList → Bool) :
    ((restrict owner tenantId db).readingLists.rows.filter fun l =>
        l.tenantId = tenantId && condition l) =
      db.readingLists.rows.filter fun l => l.tenantId = tenantId && condition l := by
  refine select_filter fun l mem holds => decide_eq_true ?_
  rw [Bool.and_eq_true, decide_eq_true_eq] at holds
  exact (sound.lists l mem).trans holds.1

/-- The rows of a book of the tenant. -/
theorem rows_of_id_seen {α : Type} {rows : List α} {key : α → Uuid} {id : Uuid}
    (own : owner id = tenantId) (condition : α → Bool) :
    ((rows.filter fun a => owner (key a) = tenantId).filter fun a => key a = id && condition a) =
      rows.filter fun a => key a = id && condition a := by
  refine select_filter fun a _ holds => decide_eq_true ?_
  rw [Bool.and_eq_true, decide_eq_true_eq] at holds
  exact (congrArg owner holds.1).trans own

/-! ### Ingestion -/

theorem local_add {write : Write} (owned : Owns owner tenantId write) :
    (share owner tenantId before).Local (SessionM.add write : IngestM Unit) fun _ => True :=
  Local.add owned rfl

theorem local_flush :
    (share owner tenantId before).Local (SessionM.flush (Write.send refuse) : IngestM Unit)
      fun _ => True :=
  Carries.flush (sends refuse before)

theorem local_commit :
    (share owner tenantId before).Local (SessionM.commit (Write.send refuse) : IngestM Unit)
      fun _ => True :=
  Carries.commit (sends refuse before)

/-- A query that finds the same among the tenant's rows as in a partitioned database. -/
theorem local_select {α : Type} {query : Database → α}
    (seen : ∀ db, Partitioned owner db → query (restrict owner tenantId db) = query db) :
    (share owner tenantId before).Local (SessionM.select (Write.send refuse) query : IngestM α)
      fun a => ∃ db, Partitioned owner db ∧ a = query db :=
  Carries.weaken (Carries.select (sends refuse before) fun db inv => seen db inv.1)
    fun _ ⟨db, inv, same⟩ => ⟨db, inv.1, same⟩

theorem local_selectBinding {α : Type} {parameters : List Parameter} {query : Database → α}
    (seen : ∀ db, Partitioned owner db → query (restrict owner tenantId db) = query db) :
    (share owner tenantId before).Local (selectBinding parameters query : IngestM α)
      fun a => ∃ db, Partitioned owner db ∧ a = query db := by
  apply (local_select seen).bind
  intro result found
  split
  · exact Local.pure found
  · exact Local.throw _

theorem local_scalarOneOrNone {α : Type} (rows : List α) :
    (share owner tenantId before).Local (scalarOneOrNone rows) fun found =>
      ∀ row, found = some row → row ∈ rows := by
  match rows with
  | [] => exact Local.pure fun row same => by cases same
  | [only] =>
      apply Local.pure
      intro row same
      obtain rfl := Option.some.inj same
      exact List.mem_singleton_self only
  | _ :: _ :: _ => exact Local.throw _

theorem local_liftAnswer {α : Type} (answer : Except Failure α) :
    (share owner tenantId before).Local (liftAnswer answer) fun a => answer = .ok a := by
  cases answer with
  | ok a => exact Local.pure rfl
  | error failure => exact Local.throw _

theorem local_upsertBook {record : WorkRecord} {newId : Uuid} (own : owner newId = tenantId) :
    (share owner tenantId before).Local (upsertBook refuse tenantId record newId) fun id =>
      owner id = tenantId := by
  apply (local_select fun db sound => books_seen sound _).bind
  rintro existing ⟨db, sound, same⟩
  apply (local_scalarOneOrNone existing).bind
  intro found isRow
  cases found with
  | none =>
      refine Local.bind (local_add ⟨own, rfl⟩) fun _ _ => ?_
      exact local_flush.bind fun _ _ => Local.pure own
  | some book =>
      obtain ⟨mem, holds⟩ := List.mem_filter.mp (same ▸ isRow book rfl)
      rw [Bool.and_eq_true, decide_eq_true_eq] at holds
      have ownBook : owner book.id = tenantId := (sound.catalog.books book mem).trans holds.1
      dsimp only
      split
      · exact Local.bind (local_add ownBook) fun _ _ => Local.pure ownBook
      · exact Local.pure ownBook

theorem local_upsertAuthor {olAuthorKey : String} {name : Option String} {newId : Uuid}
    (own : owner newId = tenantId) :
    (share owner tenantId before).Local (upsertAuthor refuse tenantId olAuthorKey name newId)
      fun id => owner id = tenantId := by
  refine (local_select fun db sound => authors_seen sound _).bind
    fun existing ⟨db, sound, same⟩ => ?_
  apply (local_scalarOneOrNone existing).bind
  intro found isRow
  cases found with
  | none =>
      refine Local.bind (local_add ⟨own, rfl⟩) fun _ _ => ?_
      exact local_flush.bind fun _ _ => Local.pure own
  | some author =>
      obtain ⟨mem, holds⟩ := List.mem_filter.mp (same ▸ isRow author rfl)
      rw [Bool.and_eq_true, decide_eq_true_eq] at holds
      exact Local.pure ((sound.catalog.authors author mem).trans holds.1)

theorem local_linkAuthor {bookId authorId : Uuid} (ownBook : owner bookId = tenantId)
    (ownAuthor : owner authorId = tenantId) :
    (share owner tenantId before).Local (linkAuthor refuse bookId authorId) fun _ => True := by
  apply (local_select fun db _ => rows_of_id_seen ownBook _).bind
  intro existing _
  apply (local_scalarOneOrNone existing).bind
  intro found _
  cases found with
  | none => exact local_add ⟨ownBook, ownAuthor⟩
  | some link => exact Local.pure trivial

theorem local_addSubject {bookId : Uuid} {subject : String} (own : owner bookId = tenantId) :
    (share owner tenantId before).Local (addSubject refuse bookId subject) fun _ => True := by
  apply (local_select fun db _ => rows_of_id_seen own _).bind
  intro existing _
  apply (local_scalarOneOrNone existing).bind
  intro found _
  cases found with
  | none => exact local_add own
  | some subject => exact Local.pure trivial

/-- The identifiers drawn while a work is stored are the tenant's. -/
structure DrawnFor (owner : Uuid → Uuid) (tenantId : Uuid) (draws : Draws) : Prop where
  book : owner draws.bookId = tenantId
  author : ∀ i, owner (draws.authorId i) = tenantId

theorem local_storeAuthor {bookId : Uuid} {draws : Draws} {call : AuthorCall}
    (drawn : DrawnFor owner tenantId draws) (own : owner bookId = tenantId) :
    (share owner tenantId before).Local (storeAuthor refuse tenantId bookId draws call)
      fun _ => True :=
  (local_upsertAuthor (drawn.author call.index)).bind fun _ ownAuthor =>
    local_linkAuthor own ownAuthor

theorem local_storeRecord {record : WorkRecord} {draws : Draws}
    (drawn : DrawnFor owner tenantId draws) :
    (share owner tenantId before).Local (storeRecord refuse tenantId record draws)
      fun _ => True := by
  apply (local_upsertBook drawn.book).bind
  intro bookId own
  apply (Local.forM fun call _ => local_storeAuthor drawn own).bind
  intro _ _
  exact Local.forM fun subject _ => local_addSubject own

theorem local_enrichAndStore {work : WorkInput} (drawn : DrawnFor owner tenantId work.draws) :
    (share owner tenantId before).Local (enrichAndStore tenantId work) fun _ => True := by
  apply (local_liftAnswer _).bind
  intro record _
  exact (local_storeRecord drawn).bind fun _ _ => local_flush

theorem local_storeAll {works : List WorkInput} {stored failed : Nat}
    (drawn : ∀ work ∈ works, DrawnFor owner tenantId work.draws) :
    (share owner tenantId before).Local (storeAll tenantId works stored failed)
      fun _ => True := by
  induction works generalizing stored failed with
  | nil => exact Local.pure trivial
  | cons work rest ih =>
      have drawnRest : ∀ later ∈ rest, DrawnFor owner tenantId later.draws := fun later mem =>
        drawn later (List.mem_cons_of_mem work mem)
      have tried : (share owner tenantId before).Local
          (do enrichAndStore tenantId work; return true : IngestM Bool) fun _ => True :=
        (local_enrichAndStore (drawn work List.mem_cons_self)).bind fun _ _ => Local.pure trivial
      apply (tried.tryCatch fun _ => Local.pure trivial).bind
      intro succeeded _
      cases succeeded with
      | true => exact ih drawnRest
      | false => exact ih drawnRest

/-- The identifiers drawn during an attempt are the tenant's. -/
structure AttemptDrawnFor (owner : Uuid → Uuid) (tenantId : Uuid) (attempt : Attempt) : Prop where
  log : owner attempt.logId = tenantId
  works : ∀ queryType works, attempt.search.run queryType = .ok works →
    ∀ work ∈ works, DrawnFor owner tenantId work.draws

section Attempt

variable {str : SessionError DbError Failure → String} {args : TaskArgs} {attempt : Attempt}

theorem local_ingest (drawn : AttemptDrawnFor owner args.tenantId attempt) :
    (share owner args.tenantId before).Local (ingest str attempt.search (args.request attempt))
      fun _ => True := by
  refine Local.bind (local_add ⟨drawn.log, rfl⟩) fun _ _ => ?_
  apply local_flush.bind
  intro _ _
  refine Local.bind (Local.tryCatch (Q := fun log => owner log.id = args.tenantId ∧
    log.tenantId = args.tenantId) ?_ fun exc => ?_) fun log _ => ?_
  · apply (local_liftAnswer _).bind
    intro works found
    refine Local.bind (local_add ⟨drawn.log, rfl⟩) fun _ _ => ?_
    apply (local_storeAll (drawn.works _ works found)).bind
    intro counts _
    exact Local.bind (local_add ⟨drawn.log, rfl⟩) fun _ _ => Local.pure ⟨drawn.log, rfl⟩
  · exact Local.bind (local_add ⟨drawn.log, rfl⟩) fun _ _ => Local.pure ⟨drawn.log, rfl⟩
  · exact local_commit.bind fun _ _ => Local.pure trivial

theorem local_loadJob {jobId : Uuid} (own : owner jobId = tenantId) :
    (share owner tenantId before).Local (loadJob jobId) fun job =>
      owner job.id = tenantId ∧ job.tenantId = tenantId := by
  have seen : ∀ db, Partitioned owner db →
      jobRow jobId (restrict owner tenantId db) = jobRow jobId db := fun db _ =>
    select_filter fun job _ same => decide_eq_true ((congrArg owner (of_decide_eq_true same)).trans own)
  apply (local_select seen).bind
  rintro rows ⟨db, sound, found⟩
  match rows, found with
  | [job], found =>
      have mem : job ∈ jobRow jobId db := found ▸ List.mem_singleton_self job
      obtain ⟨stored, same⟩ := List.mem_filter.mp mem
      have ownJob : owner job.id = tenantId := (congrArg owner (of_decide_eq_true same)).trans own
      exact Local.pure ⟨ownJob, (sound.jobs job stored).symm.trans ownJob⟩
  | [], _ => exact Local.throw _
  | _ :: _ :: _, _ => exact Local.throw _

theorem local_saveJob {job : IngestionJob} (own : owner job.id = tenantId ∧ job.tenantId = tenantId) :
    (share owner tenantId before).Local
      (do SessionM.add (.updateJob job); SessionM.commit (Write.send refuse) : IngestM Unit)
      fun _ => True :=
  Local.bind (local_add own) fun _ _ => local_commit

variable (ownJob : owner args.jobId = args.tenantId)
include ownJob

theorem local_runIngestion (drawn : AttemptDrawnFor owner args.tenantId attempt) :
    (share owner args.tenantId before).Local (runIngestion str args attempt) fun _ => True := by
  apply (local_loadJob ownJob).bind
  intro job own
  refine Local.bind (local_add own) fun _ _ => ?_
  apply local_commit.bind
  intro _ _
  apply (local_ingest drawn).bind
  intro log _
  apply (local_loadJob ownJob).bind
  intro job own
  exact local_saveJob own

theorem local_markFailed {exc : SessionError DbError Failure} :
    (share owner args.tenantId before).Local (markFailed str args exc) fun _ => True := by
  apply (local_loadJob ownJob).bind
  intro job own
  exact local_saveJob own

theorem local_ingestWorksAsync (drawn : AttemptDrawnFor owner args.tenantId attempt) :
    (share owner args.tenantId before).Local (ingestWorksAsync str args attempt)
      fun _ => True := by
  apply (local_runIngestion ownJob drawn).tryCatch
  intro exc
  refine Local.bind (P := fun _ => True) ?_ fun _ _ => Local.throw _
  exact (local_markFailed ownJob).tryCatch fun _ => Local.pure trivial

end Attempt

/-! ### Reading lists -/

theorem local_findByIsbn {isbn : String} :
    (share owner tenantId before).Local (findByIsbn tenantId isbn) fun _ => True := by
  apply (local_selectBinding fun db sound => books_seen sound _).bind
  intro rows _
  exact (local_scalarOneOrNone rows).weaken fun _ _ => trivial

theorem local_findByWorkKey {olWorkKey : String} :
    (share owner tenantId before).Local (findByWorkKey tenantId olWorkKey) fun found =>
      ∀ book, found = some book → owner book.id = tenantId := by
  apply (local_selectBinding fun db sound => books_seen sound _).bind
  rintro rows ⟨db, sound, same⟩
  apply (local_scalarOneOrNone rows).weaken
  intro found isRow book one
  obtain ⟨mem, holds⟩ := List.mem_filter.mp (same ▸ isRow book one)
  rw [Bool.and_eq_true, decide_eq_true_eq] at holds
  exact (sound.catalog.books book mem).trans holds.1

theorem local_resolveByKey {workKey isbn : Option String} {answers : ReferenceAnswers} :
    (share owner tenantId before).Local (resolveByKey tenantId workKey isbn answers)
      fun _ => True := by
  refine Local.ite_bind (P := fun _ => True) ?_ fun found _ => ?_
  · split
    · exact local_findByWorkKey.weaken fun _ _ => trivial
    · exact Local.pure trivial
  · cases found with
    | some book => exact Local.pure trivial
    | none =>
        dsimp only
        split
        · exact Local.pure trivial
        · exact Local.throw _
        · apply (local_liftAnswer _).bind
          intro olWorkKey _
          exact (local_liftAnswer _).bind fun title _ => Local.pure trivial

theorem local_resolveBook {ref : BookReference} {answers : ReferenceAnswers} :
    (share owner tenantId before).Local (resolveBook tenantId ref answers) fun _ => True := by
  have byKey : ∀ workKey, (share owner tenantId before).Local
      (if truthy workKey then resolveByKey tenantId workKey ref.isbn answers
        else return (none, some ⟨none, ref.isbn, "ISBN not found on Open Library"⟩)) fun _ => True := by
    intro workKey
    split
    · exact local_resolveByKey
    · exact Local.pure trivial
  unfold resolveBook
  split
  · exact local_resolveByKey
  · apply local_findByIsbn.bind
    intro found _
    cases found with
    | some book => exact Local.pure trivial
    | none =>
        dsimp only
        split
        · exact local_resolveByKey
        · split
          · exact byKey _
          · exact Local.throw _
          · exact byKey _

theorem local_storeReference {readingListId itemId : Uuid} {ref : BookReference}
    {answers : ReferenceAnswers} (ownList : owner readingListId = tenantId)
    (ownItem : owner itemId = tenantId) :
    (share owner tenantId before).Local
      (storeReference tenantId readingListId itemId ref answers) fun _ => True := by
  apply local_resolveBook.bind
  rintro ⟨resolved, unresolved⟩ _
  have stored : ∀ bookId : Option Uuid, (∀ id, bookId = some id → owner id = tenantId) →
      (share owner tenantId before).Local
        (do
          SessionM.add (.insertReadingListItem (itemFor itemId readingListId ref resolved bookId))
          return (resolved, unresolved) : IngestM Resolution) fun _ => True := by
    intro bookId ownBook
    refine Local.bind (local_add ?_) fun _ _ => Local.pure trivial
    cases resolved with
    | some book => exact ⟨ownItem, ownList, ownBook⟩
    | none => exact ⟨ownItem, ownList, fun id same => by cases same⟩
  dsimp only
  split
  · apply local_findByWorkKey.bind
    intro found ownBook
    apply stored _
    intro id same
    obtain ⟨book, one, rfl⟩ := Option.map_eq_some_iff.mp same
    exact ownBook book one
  · exact stored none fun id same => by cases same

/-- The identifiers drawn during a submission are the tenant's. -/
structure SubmitDrawnFor (owner : Uuid → Uuid) (tenantId : Uuid) (draws : SubmitDraws) : Prop where
  list : owner draws.listId = tenantId
  item : ∀ i, owner (draws.itemId i) = tenantId

theorem local_storeReferences {readingListId : Uuid} {draws : SubmitDraws}
    {answers : Nat → ReferenceAnswers} {refs : List BookReference} {i : Nat}
    (ownList : owner readingListId = tenantId) (drawn : SubmitDrawnFor owner tenantId draws) :
    (share owner tenantId before).Local
      (storeReferences tenantId readingListId draws answers refs i) fun _ => True := by
  induction refs generalizing i with
  | nil => exact Local.pure trivial
  | cons ref rest ih =>
      apply (local_storeReference ownList (drawn.item i)).bind
      intro resolution _
      apply ih.bind
      intro books _
      dsimp only
      split
      · exact Local.pure trivial
      · exact Local.pure trivial

theorem local_submit {hashing : Hashing} {submission : Submission} {draws : SubmitDraws}
    {answers : Nat → ReferenceAnswers} (drawn : SubmitDrawnFor owner tenantId draws) :
    (share owner tenantId before).Local (submit hashing tenantId submission draws answers)
      fun _ => True := by
  apply (local_liftAnswer _).bind
  intro emailMasked _
  apply (local_select fun db sound => lists_seen sound _).bind
  rintro rows ⟨db, sound, same⟩
  apply (local_scalarOneOrNone rows).bind
  intro existing isRow
  have stored : ∀ readingListId, owner readingListId = tenantId → (share owner tenantId before).Local
      (storeAndAnswer tenantId readingListId existing.isSome (maskName submission.patronName)
        emailMasked submission.books draws answers) fun _ => True := by
    intro readingListId ownList
    apply (local_storeReferences ownList drawn).bind
    intro books _
    exact local_commit.bind fun _ _ => Local.pure trivial
  cases existing with
  | none =>
      refine Local.bind (local_add ⟨drawn.list, rfl⟩) fun _ _ => ?_
      exact local_flush.bind fun _ _ => stored _ drawn.list
  | some list =>
      obtain ⟨mem, holds⟩ := List.mem_filter.mp (same ▸ isRow list rfl)
      rw [Bool.and_eq_true, decide_eq_true_eq] at holds
      have ownList : owner list.id = tenantId := (sound.lists list mem).trans holds.1
      dsimp only
      split
      · refine Local.bind (local_add ownList) fun _ _ => ?_
        refine Local.bind (local_add ownList) fun _ _ => ?_
        exact local_flush.bind fun _ _ => stored _ ownList
      · refine Local.bind (local_add ownList) fun _ _ => ?_
        exact local_flush.bind fun _ _ => stored _ ownList

end TenantLibrary.Tenancy
