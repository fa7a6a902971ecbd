import TenantLibrary.Ingestion.Service

/-!
What storing a work means, without a session.

Each function here is a state transformer on the catalog that looks rows up and
writes at once, and fails with the first write the database refuses.
`tracks_storeRecord` connects them to the service: on a healthy session the
second half of `_enrich_and_store` computes `putRecord`, however its writes are
spread over flushes.
-/

namespace TenantLibrary.Ingestion

open TenantLibrary.Lib TenantLibrary.OpenLibrary TenantLibrary.Store

/-- State transformers on the catalog. -/
abbrev CatalogM := StateT Catalog (Except DbError)

/-- Write one row and return `a`. -/
def written {α : Type} (refuse : Refusal) (write : CatalogWrite) (a : α) : CatalogM α := fun c =>
  (write.send refuse c).map fun after => (a, after)

/-! ### Upserts on the catalog -/

def findBook (tenantId : Uuid) (olWorkKey : String) (c : Catalog) : Option Book :=
  c.books.rows.find? fun b => b.tenantId = tenantId && b.olWorkKey = olWorkKey

def findAuthor (tenantId : Uuid) (olAuthorKey : String) (c : Catalog) : Option Author :=
  c.authors.rows.find? fun a => a.tenantId = tenantId && a.olAuthorKey = olAuthorKey

def findLink (bookId authorId : Uuid) (c : Catalog) : Option BookAuthor :=
  c.bookAuthors.rows.find? fun l => l.bookId = bookId && l.authorId = authorId

def findSubject (bookId : Uuid) (subject : String) (c : Catalog) : Option BookSubject :=
  c.bookSubjects.rows.find? fun s => s.bookId = bookId && s.subject = subject

def putBook (refuse : Refusal) (tenantId : Uuid) (record : WorkRecord) (newId : Uuid) :
    CatalogM Uuid := do
  match findBook tenantId record.workKey (← get) with
  | none => written refuse (.insertBook newId tenantId record.workKey (newValues record)) newId
  | some book =>
      if mergedValues record book ≠ book.values then
        written refuse (.updateBook book.id (mergedValues record book)) book.id
      else return book.id

def putAuthor (refuse : Refusal) (tenantId : Uuid) (olAuthorKey : String) (name : Option String)
    (newId : Uuid) : CatalogM Uuid := do
  match findAuthor tenantId olAuthorKey (← get) with
  | none => written refuse (.insertAuthor newId tenantId olAuthorKey name) newId
  | some author => return author.id

def putLink (refuse : Refusal) (bookId authorId : Uuid) : CatalogM Unit := do
  if (findLink bookId authorId (← get)).isNone then
    written refuse (.insertBookAuthor bookId authorId) ()

def putSubject (refuse : Refusal) (bookId : Uuid) (subject : String) : CatalogM Unit := do
  if (findSubject bookId subject (← get)).isNone then
    written refuse (.insertBookSubject bookId subject) ()

section Branches

variable {refuse : Refusal} {tenantId newId bookId authorId : Uuid} {record : WorkRecord}
  {olAuthorKey subject : String} {name : Option String} {c : Catalog}

theorem putBook_eq : putBook refuse tenantId record newId c =
    (match findBook tenantId record.workKey c with
      | none => written refuse (.insertBook newId tenantId record.workKey (newValues record)) newId
      | some book =>
          if mergedValues record book ≠ book.values then
            written refuse (.updateBook book.id (mergedValues record book)) book.id
          else return book.id : CatalogM Uuid) c := rfl

theorem putBook_of_none (absent : findBook tenantId record.workKey c = none) :
    putBook refuse tenantId record newId c =
      written refuse (.insertBook newId tenantId record.workKey (newValues record)) newId c := by
  rw [putBook_eq, absent]

theorem putBook_of_some {book : Book} (found : findBook tenantId record.workKey c = some book) :
    putBook refuse tenantId record newId c =
      if mergedValues record book ≠ book.values then
        written refuse (.updateBook book.id (mergedValues record book)) book.id c
      else .ok (book.id, c) := by
  rw [putBook_eq, found]
  dsimp only
  split <;> rfl

theorem putAuthor_eq : putAuthor refuse tenantId olAuthorKey name newId c =
    (match findAuthor tenantId olAuthorKey c with
      | none => written refuse (.insertAuthor newId tenantId olAuthorKey name) newId
      | some author => return author.id : CatalogM Uuid) c := rfl

theorem putAuthor_of_none (absent : findAuthor tenantId olAuthorKey c = none) :
    putAuthor refuse tenantId olAuthorKey name newId c =
      written refuse (.insertAuthor newId tenantId olAuthorKey name) newId c := by
  rw [putAuthor_eq, absent]

theorem putAuthor_of_some {author : Author}
    (found : findAuthor tenantId olAuthorKey c = some author) :
    putAuthor refuse tenantId olAuthorKey name newId c = .ok (author.id, c) := by
  rw [putAuthor_eq, found]
  rfl

theorem putLink_eq : putLink refuse bookId authorId c =
    (if (findLink bookId authorId c).isNone then
      written refuse (.insertBookAuthor bookId authorId) () else pure () : CatalogM Unit) c := rfl

theorem putLink_of_none (absent : (findLink bookId authorId c).isNone) :
    putLink refuse bookId authorId c =
      written refuse (.insertBookAuthor bookId authorId) () c := by
  rw [putLink_eq, if_pos absent]

theorem putLink_of_some (present : ¬ (findLink bookId authorId c).isNone) :
    putLink refuse bookId authorId c = .ok ((), c) := by
  rw [putLink_eq, if_neg present]
  rfl

theorem putSubject_eq : putSubject refuse bookId subject c =
    (if (findSubject bookId subject c).isNone then
      written refuse (.insertBookSubject bookId subject) () else pure () : CatalogM Unit) c := rfl

theorem putSubject_of_none (absent : (findSubject bookId subject c).isNone) :
    putSubject refuse bookId subject c =
      written refuse (.insertBookSubject bookId subject) () c := by
  rw [putSubject_eq, if_pos absent]

theorem putSubject_of_some (present : ¬ (findSubject bookId subject c).isNone) :
    putSubject refuse bookId subject c = .ok ((), c) := by
  rw [putSubject_eq, if_neg present]
  rfl

end Branches

/-- One author of a work: the author, then the link. -/
def putAuthorCall (refuse : Refusal) (tenantId bookId : Uuid) (draws : Draws) (call : AuthorCall) :
    CatalogM Unit := do
  let authorId ← putAuthor refuse tenantId (call.olAuthorKey draws) call.name
    (draws.authorId call.index)
  putLink refuse bookId authorId

/-- A whole work. -/
def putRecord (refuse : Refusal) (tenantId : Uuid) (record : WorkRecord) (draws : Draws) :
    CatalogM Unit := do
  let bookId ← putBook refuse tenantId record draws.bookId
  record.authorCalls.forM (putAuthorCall refuse tenantId bookId draws)
  (record.subjects.take 50).forM (putSubject refuse bookId)

/-! ### The service computes them -/

/-- A transformer of the catalog as one of the database. -/
def onCatalog {α : Type} (transformer : CatalogM α) : StateT Database (Except DbError) α :=
  fun db => (transformer db.catalog).map fun (a, catalog) => (a, { db with catalog })

theorem onCatalog_bind {α β : Type} (transformer : CatalogM α) (next : α → CatalogM β) :
    onCatalog (transformer >>= next) = onCatalog transformer >>= fun a => onCatalog (next a) := by
  funext db
  change ((transformer db.catalog) >>= fun reached => next reached.1 reached.2).map _ = _
  cases moved : transformer db.catalog <;>
    simp [onCatalog, moved, Bind.bind, StateT.bind, Except.bind, Except.map]

theorem onCatalog_forM {ι : Type} (body : ι → CatalogM PUnit) (items : List ι) :
    onCatalog (items.forM body) = items.forM fun i => onCatalog (body i) := by
  induction items with
  | nil => rfl
  | cons i rest ih => exact (onCatalog_bind _ _).trans (congrArg _ (funext fun _ => ih))

variable {refuse : Refusal} {α β : Type}

theorem onCatalog_written (write : CatalogWrite) (a : α) :
    onCatalog (written refuse write a) = fun db =>
      (Write.send refuse (.catalog write) db).map fun after => (a, after) := by
  funext db
  simp only [onCatalog, written, Write.send]
  cases write.send refuse db.catalog <;> rfl

/-- A lookup that can find one row at most, and what follows it. -/
theorem tracks_lookup {Row : Type} {Clash : Row → Row → Prop} (table : Catalog → Table Row Clash)
    {condition : Row → Bool} (unique : ∀ a b, condition a → condition b → Clash a b)
    {next : Option Row → IngestM β} (transformer : Option Row → CatalogM β)
    (each : ∀ row, Tracks (Write.send refuse) (next row) (onCatalog (transformer row))) :
    Tracks (Write.send refuse)
      (do
        let existing ← SessionM.select (Write.send refuse) fun db =>
          (table db.catalog).rows.filter condition
        next (← scalarOneOrNone existing))
      (onCatalog do transformer ((table (← get)).rows.find? condition)) := by
  have same : (onCatalog do transformer ((table (← get)).rows.find? condition)) = fun db =>
      onCatalog (transformer ((table db.catalog).rows.filter condition).head?) db := by
    funext db
    rw [List.head?_filter]
    rfl
  rw [same]
  refine @Tracks.select_bind Database Write DbError Failure (List Row) β _ _ _
    (fun existing => onCatalog (transformer existing.head?)) fun db => ?_
  have atMostOne := (table db.catalog).filter_length_le_one unique
  match found : (table db.catalog).rows.filter condition with
  | [] => exact each none
  | [row] => exact each (some row)
  | _ :: _ :: _ => simp [found] at atMostOne

theorem tracks_upsertBook (tenantId : Uuid) (record : WorkRecord) (newId : Uuid) :
    Tracks (Write.send refuse) (upsertBook refuse tenantId record newId)
      (onCatalog (putBook refuse tenantId record newId)) := by
  refine tracks_lookup Catalog.books ?_
    (fun
      | none => written refuse (.insertBook newId tenantId record.workKey (newValues record)) newId
      | some book =>
          if mergedValues record book ≠ book.values then
            written refuse (.updateBook book.id (mergedValues record book)) book.id
          else return book.id)
    ?_
  · exact Table.clash_of_columns fun _ _ tenant key => .inr ⟨tenant, key⟩
  · intro row
    cases row with
    | none =>
        simp only [onCatalog_written]
        exact Tracks.add_flush_return _ _
    | some book =>
        dsimp only
        split
        · rw [onCatalog_written]
          exact Tracks.add_return _ _
        · exact Tracks.pure _

theorem tracks_upsertAuthor (tenantId : Uuid) (olAuthorKey : String) (name : Option String)
    (newId : Uuid) :
    Tracks (Write.send refuse) (upsertAuthor refuse tenantId olAuthorKey name newId)
      (onCatalog (putAuthor refuse tenantId olAuthorKey name newId)) := by
  refine tracks_lookup Catalog.authors ?_
    (fun
      | none => written refuse (.insertAuthor newId tenantId olAuthorKey name) newId
      | some author => return author.id)
    ?_
  · exact Table.clash_of_columns fun _ _ tenant key => .inr ⟨tenant, key⟩
  · intro row
    cases row with
    | none =>
        simp only [onCatalog_written]
        exact Tracks.add_flush_return _ _
    | some author => exact Tracks.pure _

theorem tracks_linkAuthor (bookId authorId : Uuid) :
    Tracks (Write.send refuse) (linkAuthor refuse bookId authorId)
      (onCatalog (putLink refuse bookId authorId)) := by
  refine tracks_lookup Catalog.bookAuthors ?_
    (fun existing =>
      if existing.isNone then written refuse (.insertBookAuthor bookId authorId) ()
      else return ()) ?_
  · intro a b selectedA selectedB
    simp only [Bool.and_eq_true, decide_eq_true_eq] at selectedA selectedB
    cases a
    cases b
    simp_all
  · intro row
    cases row with
    | none =>
        simp only [onCatalog_written, Option.isNone_none, if_true]
        exact Tracks.add _
    | some link => exact Tracks.pure _

theorem tracks_addSubject (bookId : Uuid) (subject : String) :
    Tracks (Write.send refuse) (addSubject refuse bookId subject)
      (onCatalog (putSubject refuse bookId subject)) := by
  refine tracks_lookup Catalog.bookSubjects ?_
    (fun existing =>
      if existing.isNone then written refuse (.insertBookSubject bookId subject) ()
      else return ()) ?_
  · intro a b selectedA selectedB
    simp only [Bool.and_eq_true, decide_eq_true_eq] at selectedA selectedB
    cases a
    cases b
    simp_all
  · intro row
    cases row with
    | none =>
        simp only [onCatalog_written, Option.isNone_none, if_true]
        exact Tracks.add _
    | some row => exact Tracks.pure _

theorem tracks_storeAuthor (tenantId bookId : Uuid) (draws : Draws) (call : AuthorCall) :
    Tracks (Write.send refuse) (storeAuthor refuse tenantId bookId draws call)
      (onCatalog (putAuthorCall refuse tenantId bookId draws call)) := by
  rw [putAuthorCall, onCatalog_bind]
  exact (tracks_upsertAuthor _ _ _ _).bind fun _ => tracks_linkAuthor _ _

/-- The second half of `_enrich_and_store` stores a whole work. -/
theorem tracks_storeRecord (tenantId : Uuid) (record : WorkRecord) (draws : Draws) :
    Tracks (Write.send refuse) (storeRecord refuse tenantId record draws)
      (onCatalog (putRecord refuse tenantId record draws)) := by
  simp only [putRecord, onCatalog_bind, onCatalog_forM]
  exact (tracks_upsertBook _ _ _).bind fun bookId =>
    (Tracks.forM (tracks_storeAuthor tenantId bookId draws) _).bind fun _ =>
      Tracks.forM (tracks_addSubject bookId) _

end TenantLibrary.Ingestion
