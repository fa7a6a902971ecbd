import TenantLibrary.Ingestion.Storing

/-!
Isolation of failures inside a batch.

Each work of a batch runs under its own `try`/`except`, but all of them share one
session and one transaction. A work that fails before it touches a row leaves the
session as it was, and the batch goes on. A work whose row the database refuses
takes the whole transaction with it: the works stored before it are rolled back,
every later work fails on its first query, and the commit at the end of `ingest`
raises. `isolates_iff` says that the refused row is the only thing that can go
wrong: `ingest` stores exactly the works that do not fail if and only if the
database refuses no row of the batch.
-/

namespace TenantLibrary.Ingestion

open TenantLibrary.Lib TenantLibrary.OpenLibrary TenantLibrary.Store

/-! ### One work by itself -/

/-- How storing one work on a catalog ends: an exception before the first row, a row
the database refuses, or the catalog with the work in it. -/
inductive Outcome where
  | failed (failure : Failure)
  | refused (error : DbError)
  | stored (catalog : Catalog)

/-- One work on a catalog, whatever happens to other works. -/
def putWork (tenantId : Uuid) (work : WorkInput) (c : Catalog) : Outcome :=
  match enrich work.result work.answers with
  | .error failure => .failed failure
  | .ok record =>
      match (putRecord work.refuse tenantId record work.draws).run c with
      | .ok (_, after) => .stored after
      | .error error => .refused error

/-- The works that do not fail, stored in order: the catalog and their number. -/
def storedInIsolation (tenantId : Uuid) : List WorkInput → Catalog → Catalog × Nat
  | [], c => (c, 0)
  | work :: rest, c =>
      match putWork tenantId work c with
      | .stored after =>
          let (last, count) := storedInIsolation tenantId rest after
          (last, count + 1)
      | .failed _ => storedInIsolation tenantId rest c
      | .refused _ => storedInIsolation tenantId rest c

/-- The database refuses no row of any work of the batch. -/
def NoRefusal (tenantId : Uuid) : List WorkInput → Catalog → Prop
  | [], _ => True
  | work :: rest, c =>
      match putWork tenantId work c with
      | .stored after => NoRefusal tenantId rest after
      | .failed _ => NoRefusal tenantId rest c
      | .refused _ => False

instance instDecidableNoRefusal (tenantId : Uuid) :
    ∀ works c, Decidable (NoRefusal tenantId works c)
  | [], _ => isTrue trivial
  | work :: rest, c =>
      match outcome : putWork tenantId work c with
      | .stored after =>
          @decidable_of_iff _ (NoRefusal tenantId rest after) (by rw [NoRefusal, outcome])
            (instDecidableNoRefusal tenantId rest after)
      | .failed _ =>
          @decidable_of_iff _ (NoRefusal tenantId rest c) (by rw [NoRefusal, outcome])
            (instDecidableNoRefusal tenantId rest c)
      | .refused _ => isFalse (by rw [NoRefusal, outcome]; exact id)

theorem storedInIsolation_le_length (tenantId : Uuid) (works : List WorkInput) (c : Catalog) :
    (storedInIsolation tenantId works c).2 ≤ works.length := by
  induction works generalizing c with
  | nil => exact Nat.le_refl 0
  | cons work rest ih =>
      rw [storedInIsolation, List.length_cons]
      cases putWork tenantId work c with
      | stored after => exact Nat.succ_le_succ (ih after)
      | failed failure => exact Nat.le_succ_of_le (ih c)
      | refused error => exact Nat.le_succ_of_le (ih c)

/-! ### One work in a session -/

/-- A healthy session that amounts to `db` whatever values the database refuses from
now on: no row of a work is pending. -/
def Ready (base db : Database) (s : Session Database Write) : Prop :=
  ∀ refuse, Holding (Write.send refuse) base (.ok db) s

theorem ready_clean (base db : Database) : Ready base db ⟨base, db, [], false⟩ :=
  fun _ => ⟨rfl, rfl, rfl⟩

/-- The log of the batch can be updated at any time. -/
theorem Ready.updateLog {base db : Database} {s : Session Database Write} (ready : Ready base db s)
    (log : IngestionLog) :
    Ready base { db with logs := db.logs.modify (replaceLog log) clash_of_replaceLog }
      { s with pending := s.pending ++ [.updateLog log] } := by
  intro refuse
  have holding := ready refuse
  refine ⟨holding.healthy, holding.committed, ?_⟩
  rw [sendAll_snoc, holding.view]
  rfl

open SessionM in
/-- On a healthy session a work does what it does by itself. A refused row leaves a
dead session over the catalog committed before the batch. -/
theorem runOn_enrichAndStore {base db : Database} {s : Session Database Write}
    (ready : Ready base db s) (tenantId : Uuid) (work : WorkInput) :
    runOn (enrichAndStore tenantId work) s =
      match putWork tenantId work db.catalog with
      | .stored after => (.ok (), ⟨base, { db with catalog := after }, [], false⟩)
      | .failed failure => (.error (.raised failure), s)
      | .refused error => (.error (.database error), .dead base) := by
  unfold enrichAndStore putWork
  cases enriched : enrich work.result work.answers with
  | error failure => rfl
  | ok record =>
      have ended := (@tracks_storeRecord work.refuse tenantId record work.draws).flushed
        (ready work.refuse)
      have continued : runOn (do
          let record ← liftAnswer (.ok record)
          storeRecord work.refuse tenantId record work.draws
          flush (Write.send work.refuse)) s = _ := ended
      rw [continued]
      simp only [StateT.run, onCatalog]
      cases (putRecord work.refuse tenantId record work.draws) db.catalog <;> rfl

open SessionM in
/-- On a dead session every work fails. -/
theorem runOn_enrichAndStore_dead (base : Database) (tenantId : Uuid) (work : WorkInput) :
    ∃ e, runOn (enrichAndStore tenantId work) (.dead base) = (.error e, .dead base) := by
  unfold enrichAndStore
  cases enriched : enrich work.result work.answers with
  | error failure => exact ⟨.raised failure, rfl⟩
  | ok record => exact ⟨.pendingRollback, rfl⟩

/-! ### The batch -/

open SessionM in
/-- The body of the batch's loop turns an exception into a failed work. -/
theorem runOn_storeAll_cons (tenantId : Uuid) (work : WorkInput) (rest : List WorkInput)
    (stored failed : Nat) (s : Session Database Write) :
    runOn (storeAll tenantId (work :: rest) stored failed) s =
      match runOn (enrichAndStore tenantId work) s with
      | (.ok _, t) => runOn (storeAll tenantId rest (stored + 1) failed) t
      | (.error _, t) => runOn (storeAll tenantId rest stored (failed + 1)) t := by
  rw [storeAll, runOn_bind, runOn_tryCatch, runOn_bind]
  rcases runOn (enrichAndStore tenantId work) s with ⟨result, t⟩
  cases result <;> rfl

open SessionM in
/-- On a dead session the whole batch fails. -/
theorem runOn_storeAll_dead (base : Database) (tenantId : Uuid) (works : List WorkInput)
    (stored failed : Nat) :
    runOn (storeAll tenantId works stored failed) (.dead base) =
      (.ok (stored, failed + works.length), .dead base) := by
  induction works generalizing failed with
  | nil => rfl
  | cons work rest ih =>
      obtain ⟨e, ran⟩ := runOn_enrichAndStore_dead base tenantId work
      rw [runOn_storeAll_cons, ran, List.length_cons, Nat.add_comm rest.length, ← Nat.add_assoc]
      exact ih (failed + 1)

open SessionM in
/-- Where the database refuses nothing, the batch stores the works that do not fail. -/
theorem runOn_storeAll_ready {base db : Database} {s : Session Database Write}
    (ready : Ready base db s) (tenantId : Uuid) (works : List WorkInput) (stored failed : Nat)
    (accepted : NoRefusal tenantId works db.catalog) :
    ∃ t,
      runOn (storeAll tenantId works stored failed) s =
        (.ok (stored + (storedInIsolation tenantId works db.catalog).2,
          failed + (works.length - (storedInIsolation tenantId works db.catalog).2)), t) ∧
      Ready base { db with catalog := (storedInIsolation tenantId works db.catalog).1 } t := by
  induction works generalizing db s stored failed with
  | nil => exact ⟨s, rfl, ready⟩
  | cons work rest ih =>
      have ran := runOn_enrichAndStore ready tenantId work
      have bounded := storedInIsolation_le_length tenantId rest
      rw [runOn_storeAll_cons, ran, storedInIsolation]
      rw [NoRefusal] at accepted
      cases outcome : putWork tenantId work db.catalog with
      | stored after =>
          rw [outcome] at accepted
          have clean := ready_clean base { db with catalog := after }
          obtain ⟨t, finished, last⟩ := ih clean (stored + 1) failed accepted
          refine ⟨t, ?_, last⟩
          have counted := bounded after
          simp only [finished, List.length_cons, Prod.mk.injEq, Except.ok.injEq, and_true]
          omega
      | failed failure =>
          rw [outcome] at accepted
          obtain ⟨t, finished, last⟩ := ih ready stored (failed + 1) accepted
          refine ⟨t, ?_, last⟩
          have counted := bounded db.catalog
          simp only [finished, List.length_cons, Prod.mk.injEq, Except.ok.injEq, and_true, true_and]
          omega
      | refused error =>
          rw [outcome] at accepted
          exact accepted.elim

open SessionM in
/-- A refused row leaves the batch on a dead session. -/
theorem runOn_storeAll_refused {base db : Database} {s : Session Database Write}
    (ready : Ready base db s) (tenantId : Uuid) (works : List WorkInput) (stored failed : Nat)
    (refused : ¬ NoRefusal tenantId works db.catalog) :
    ∃ counts, runOn (storeAll tenantId works stored failed) s = (.ok counts, .dead base) := by
  induction works generalizing db s stored failed with
  | nil => exact absurd trivial refused
  | cons work rest ih =>
      have ran := runOn_enrichAndStore ready tenantId work
      rw [runOn_storeAll_cons, ran]
      rw [NoRefusal] at refused
      cases outcome : putWork tenantId work db.catalog with
      | stored after =>
          rw [outcome] at refused
          exact ih (ready_clean base { db with catalog := after }) _ _ refused
      | failed failure =>
          rw [outcome] at refused
          exact ih ready _ _ refused
      | refused error => exact ⟨_, runOn_storeAll_dead base tenantId rest _ _⟩

/-! ### The whole ingestion -/

/-- What a failure-isolating `ingest` does with the works its search found: it
returns, has committed the works that do not fail, and its log says so. -/
def IsolatesFailures (str : SessionError DbError Failure → String) (search : Search)
    (request : IngestRequest) (works : List WorkInput) (db : Database) : Prop :=
  ∃ log after,
    SessionM.runOn (ingest str search request) (.opened db) = (.ok log, .opened after) ∧
      after.catalog = (storedInIsolation request.tenantId works db.catalog).1 ∧
      log ∈ after.logs ∧ log.id = request.logId ∧ log.status = .completed ∧
      log.worksFetched = works.length ∧
      log.worksStored = (storedInIsolation request.tenantId works db.catalog).2 ∧
      log.worksFailed = works.length - (storedInIsolation request.tenantId works db.catalog).2

/-- The log once the search has answered. -/
def IngestRequest.fetchedLog (request : IngestRequest) (fetched : Nat) : IngestionLog :=
  { request.log with worksFetched := fetched }

/-- The log of a batch that ran to its end. -/
def IngestRequest.completedLog (request : IngestRequest) (fetched stored failed : Nat) :
    IngestionLog :=
  { request.fetchedLog fetched with
    worksStored := stored, worksFailed := failed, status := .completed }

/-- The database with the log of the batch in it. -/
def IngestRequest.begun (request : IngestRequest) (db : Database) (fresh : ∀ log ∈ db.logs.rows,
    log.id ≠ request.logId) : Database :=
  { db with logs := ⟨db.logs.rows ++ [request.log], List.pairwise_append.mpr
    ⟨db.logs.distinct, .cons (by simp) .nil, fun log mem last isLast => by
      obtain rfl := List.mem_singleton.mp isLast
      exact fresh log mem⟩⟩ }

/-- The database the batch starts on, once the log's pending update is sent. -/
def IngestRequest.fetching (request : IngestRequest) (db : Database)
    (fresh : ∀ log ∈ db.logs.rows, log.id ≠ request.logId) (fetched : Nat) : Database :=
  { request.begun db fresh with
    logs := (request.begun db fresh).logs.modify (replaceLog (request.fetchedLog fetched))
      clash_of_replaceLog }

theorem ready_fetching (request : IngestRequest) (db : Database)
    (fresh : ∀ log ∈ db.logs.rows, log.id ≠ request.logId) (fetched : Nat) :
    Ready db (request.fetching db fresh fetched)
      ⟨db, request.begun db fresh, [.updateLog (request.fetchedLog fetched)], false⟩ :=
  (ready_clean db (request.begun db fresh)).updateLog _

open SessionM in
/-- The log is inserted first. -/
theorem runOn_flush_insertLog (request : IngestRequest) (db : Database)
    (fresh : ∀ log ∈ db.logs.rows, log.id ≠ request.logId) :
    runOn (flush (Write.send Refusal.never) : IngestM Unit) ⟨db, db, [.insertLog request.log], false⟩ =
      (.ok (), ⟨db, request.begun db fresh, [], false⟩) := by
  have accepted : db.logs.insert request.log = some (request.begun db fresh).logs :=
    Table.insert_eq_some.mpr ⟨fun log mem => fresh log mem, rfl⟩
  rw [runOn_flush _ _ rfl]
  simp only [sendAll, Write.send, accepted]
  rfl

open SessionM in
/-- With its log inserted and its search answered, `ingest` is the batch followed by
the commit. -/
theorem runOn_ingest (str : SessionError DbError Failure → String) (search : Search)
    (request : IngestRequest) (db : Database) {works : List WorkInput}
    (found : search.run request.queryType = .ok works)
    (fresh : ∀ log ∈ db.logs.rows, log.id ≠ request.logId)
    {stored failed : Nat} {t : Session Database Write}
    (batch : runOn (storeAll request.tenantId works 0 0)
      ⟨db, request.begun db fresh, [.updateLog (request.fetchedLog works.length)], false⟩ =
        (.ok (stored, failed), t)) :
    runOn (ingest str search request) (.opened db) =
      match runOn (commit (Write.send Refusal.never) : IngestM Unit)
        { t with pending := t.pending ++
          [.updateLog (request.completedLog works.length stored failed)] } with
      | (.ok _, u) => (.ok (request.completedLog works.length stored failed), u)
      | (.error e, u) => (.error e, u) := by
  simp only [ingest, runOn_bind, runOn_add, Session.opened, List.nil_append,
    runOn_flush_insertLog request db fresh, runOn_tryCatch, found, liftAnswer, runOn_pure]
  rw [IngestRequest.fetchedLog] at batch
  simp only [batch, IngestRequest.completedLog, IngestRequest.fetchedLog]
  generalize runOn (commit (Write.send Refusal.never)) _ = closed
  rcases closed with ⟨result, u⟩
  cases result <;> rfl

open SessionM in
/-- Where the database refuses nothing, `ingest` returns and has committed the works
that do not fail and its completed log. -/
theorem runOn_ingest_accepted (str : SessionError DbError Failure → String) (search : Search)
    (request : IngestRequest) (db : Database) {works : List WorkInput}
    (found : search.run request.queryType = .ok works)
    (fresh : ∀ log ∈ db.logs.rows, log.id ≠ request.logId)
    (accepted : NoRefusal request.tenantId works db.catalog) :
    ∃ log after, runOn (ingest str search request) (.opened db) = (.ok log, .opened after) ∧
      log = request.completedLog works.length
        (storedInIsolation request.tenantId works db.catalog).2
        (works.length - (storedInIsolation request.tenantId works db.catalog).2) ∧
      after.catalog = (storedInIsolation request.tenantId works db.catalog).1 ∧
      after.jobs = db.jobs ∧ log ∈ after.logs := by
  have ready := ready_fetching request db fresh works.length
  obtain ⟨t, batch, last⟩ := runOn_storeAll_ready ready request.tenantId works 0 0 accepted
  rw [Nat.zero_add, Nat.zero_add] at batch
  have sameCatalog : (request.fetching db fresh works.length).catalog = db.catalog := rfl
  rw [sameCatalog] at batch last
  have finished := runOn_ingest str search request db found fresh batch
  have held := last.updateLog (request.completedLog works.length
    (storedInIsolation request.tenantId works db.catalog).2
    (works.length - (storedInIsolation request.tenantId works db.catalog).2)) Refusal.never
  rw [runOn_commit _ _ held.healthy, held.view] at finished
  refine ⟨_, _, finished, rfl, rfl, rfl, ?_⟩
  -- the log inserted at the start is the row every update replaces
  simp only [Table.mem_def, Table.rows_modify, IngestRequest.fetching, IngestRequest.begun,
    List.map_append, List.map_map]
  refine List.mem_append_right _ (List.mem_singleton.mpr ?_)
  simp [replaceLog, IngestRequest.completedLog, IngestRequest.fetchedLog]

open SessionM in
/-- A refused row makes `ingest` raise and leaves a dead session over the database
the batch began with. -/
theorem runOn_ingest_refused (str : SessionError DbError Failure → String) (search : Search)
    (request : IngestRequest) (db : Database) {works : List WorkInput}
    (found : search.run request.queryType = .ok works)
    (fresh : ∀ log ∈ db.logs.rows, log.id ≠ request.logId)
    (refused : ¬ NoRefusal request.tenantId works db.catalog) :
    ∃ s, runOn (ingest str search request) (.opened db) = (.error .pendingRollback, s) ∧
      s.committed = db ∧ s.failed = true := by
  have ready := ready_fetching request db fresh works.length
  obtain ⟨counts, batch⟩ := runOn_storeAll_refused ready request.tenantId works 0 0 refused
  have finished := runOn_ingest str search request db found fresh batch
  rw [runOn_commit_failed _ _ rfl] at finished
  exact ⟨_, finished, rfl, rfl⟩

open SessionM in
/-- A search that fails is recorded in the log, which is committed. -/
theorem runOn_ingest_searchFailed (str : SessionError DbError Failure → String) (search : Search)
    (request : IngestRequest) (db : Database) {failure : Failure}
    (failed : search.run request.queryType = .error failure)
    (fresh : ∀ log ∈ db.logs.rows, log.id ≠ request.logId) :
    ∃ log after, runOn (ingest str search request) (.opened db) = (.ok log, .opened after) ∧
      log.status = .failed ∧ after.catalog = db.catalog ∧ after.jobs = db.jobs := by
  let log := { request.log with
    status := .failed, errorMessage := some (errorText str (.raised failure)) }
  refine ⟨log, { request.begun db fresh with
    logs := (request.begun db fresh).logs.modify (replaceLog log) clash_of_replaceLog },
    ?_, rfl, rfl, rfl⟩
  simp only [ingest, runOn_bind, runOn_add, Session.opened, List.nil_append,
    runOn_flush_insertLog request db fresh, runOn_tryCatch, failed, liftAnswer, runOn_throw, runOn_pure]
  rfl

open SessionM in
/-- A log id that is taken makes `ingest` raise before it searches. -/
theorem runOn_ingest_taken (str : SessionError DbError Failure → String) (search : Search)
    (request : IngestRequest) (db : Database)
    (taken : ¬ ∀ log ∈ db.logs.rows, log.id ≠ request.logId) :
    runOn (ingest str search request) (.opened db) = (.error (.database .uniqueViolation), .dead db) := by
  have refused : db.logs.insert request.log = none := by
    unfold Table.insert
    exact dif_neg taken
  have raised : runOn (flush (Write.send Refusal.never) : IngestM Unit)
      ⟨db, db, [.insertLog request.log], false⟩ = (.error (.database .uniqueViolation), .dead db) := by
    rw [runOn_flush _ _ rfl]
    simp only [sendAll, Write.send, refused]
    rfl
  simp only [ingest, runOn_bind, runOn_add, Session.opened, List.nil_append, raised]

/-- For every tenant, every batch and every pattern of failures: `ingest` isolates
the failures of a batch if and only if the database refuses no row of a work. -/
theorem isolates_iff (str : SessionError DbError Failure → String) (search : Search)
    (request : IngestRequest) (db : Database) (works : List WorkInput)
    (found : search.run request.queryType = .ok works)
    (fresh : ∀ log ∈ db.logs.rows, log.id ≠ request.logId) :
    IsolatesFailures str search request works db ↔
      NoRefusal request.tenantId works db.catalog := by
  constructor
  · rintro ⟨log, after, returned, _⟩
    by_contra refused
    obtain ⟨s, raised, _⟩ := runOn_ingest_refused str search request db found fresh refused
    rw [raised] at returned
    simp at returned
  · intro accepted
    obtain ⟨log, after, returned, rfl, stored, _, logged⟩ :=
      runOn_ingest_accepted str search request db found fresh accepted
    exact ⟨_, after, returned, stored, logged, rfl, rfl, rfl, rfl, rfl⟩

/-- A work that needs no enrichment, by one author. -/
def plainWork (workKey : String) (title : Option String) (id : Uuid) : WorkInput where
  result :=
    { workKey, title
      authorNames := some ["Ann"]
      authorKeys := ["OL1A"]
      firstPublishYear := none
      coverId := some 7
      subjects := ["fiction"]
      isbn := none }
  answers := ⟨.error (.openLibraryError ""), fun _ => .error (.openLibraryError "")⟩
  draws := ⟨id, fun i => id + i + 1, fun _ => ""⟩
  refuse := Refusal.never

/-- An ingestion whose search finds the given works. -/
def searchFinding (works : List WorkInput) : Search := ⟨.ok works, .ok works⟩

def sampleRequest : IngestRequest := ⟨1, .author, "ann", none, 99⟩

/-- Three works, the second of which fails with a `null` title or `null` authors. -/
def batchWith (second : WorkInput) : List WorkInput :=
  [plainWork "OL1W" (some "One") 10, second, plainWork "OL3W" (some "Three") 30]

/-- The database with no rows. -/
theorem fresh_empty (id : Uuid) : ∀ log ∈ Database.empty.logs.rows, log.id ≠ id := by
  simp [Database.empty, Table.empty]

/-- One search result with a `null` title spoils the batch: the works before and after
it are not stored either. -/
theorem null_title_spoils_batch :
    ¬ IsolatesFailures (fun _ => "") (searchFinding (batchWith (plainWork "OL2W" none 20)))
      sampleRequest (batchWith (plainWork "OL2W" none 20)) Database.empty := by
  rintro ⟨log, after, returned, _⟩
  have raised : (SessionM.runOn (ingest (fun _ => "")
      (searchFinding (batchWith (plainWork "OL2W" none 20))) sampleRequest)
      (.opened Database.empty)).1 = .error .pendingRollback := by decide +kernel
  rw [returned] at raised
  cases raised

/-- A work whose author names are `null` fails by itself. -/
def nullAuthors (work : WorkInput) : WorkInput :=
  { work with result := { work.result with authorNames := none } }

/-- With the second work failing on its own, the two others are stored. -/
theorem null_authors_isolated :
    (storedInIsolation 1 (batchWith (nullAuthors (plainWork "OL2W" (some "Two") 20)))
        Catalog.empty).2 = 2 ∧
      IsolatesFailures (fun _ => "")
        (searchFinding (batchWith (nullAuthors (plainWork "OL2W" (some "Two") 20))))
        sampleRequest (batchWith (nullAuthors (plainWork "OL2W" (some "Two") 20)))
        Database.empty := by
  refine ⟨by decide +kernel, ?_⟩
  exact (isolates_iff _ _ sampleRequest Database.empty _ rfl (fresh_empty 99)).mpr
    (by decide +kernel)

end TenantLibrary.Ingestion
