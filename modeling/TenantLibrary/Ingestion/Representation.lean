import TenantLibrary.Ingestion.Enrichment
import TenantLibrary.Ingestion.Growth
import TenantLibrary.Ingestion.Isolation
import TenantLibrary.Lib.Run

/-!
The representation invariant of the catalog.

Every unique constraint is guarded by a look-up before the insert, and a session sends
what was added before it looks anything up. So with fresh identifiers no statement of
`_enrich_and_store` breaks a constraint, however often a work, an author key or a
subject repeats, unless its column cuts it: the look-up is for the whole text, and the
insert is of the cut one (`putRecord_unique`). The cover's id and URL are merged by two
independent `or` expressions; `coverUrl_merged` says that they stay in step.
-/

namespace TenantLibrary.Ingestion

open TenantLibrary.Lib TenantLibrary.OpenLibrary TenantLibrary.Store

/-! ### Columns -/

/-- `if number:` on a number that may be `None`. -/
def truthyInt (number : Option Int) : Bool := number.any (· ≠ 0)

/-- What is truthy stays so through an `or`. -/
theorem any_pyOr {α : Type} [DecidableEq α] {falsy : α} {x y : Option α}
    (kept : y.any (· ≠ falsy)) : (pyOr falsy x y).any (· ≠ falsy) := by
  unfold pyOr
  cases x with
  | none => exact kept
  | some a =>
      dsimp only
      split
      case isTrue => exact kept
      case isFalse truthy => simpa using truthy

theorem buildCoverUrl_ne_empty (coverId : Int) : buildCoverUrl coverId ≠ "" := by
  intro empty
  have ending : "-M.jpg" = "" := (String.append_eq_empty_iff.mp empty).2
  exact absurd ending (by decide)

/-- The two `or` expressions on the cover stay in step. -/
theorem coverUrl_merged (new stored : Option Int) :
    pyOr "" (coverUrl new) (coverUrl stored) = coverUrl (pyOr 0 new stored) := by
  cases new with
  | none => rfl
  | some id =>
      by_cases zero : id = 0
      · simp [pyOr, coverUrl, zero]
      · simp [pyOr, coverUrl, zero, buildCoverUrl_ne_empty]

/-- The truthy columns of a book that are still truthy after. -/
structure Retains (before after : Book) : Prop where
  isbn : truthy before.isbn → truthy after.isbn
  firstPublishYear : truthyInt before.firstPublishYear → truthyInt after.firstPublishYear
  coverId : truthyInt before.coverId → truthyInt after.coverId
  coverUrl : truthy before.coverUrl → truthy after.coverUrl
  description : truthy before.description → truthy after.description

theorem Retains.refl (book : Book) : Retains book book := ⟨id, id, id, id, id⟩

/-- The URL of a cover is not cut. -/
theorem cut_buildCoverUrl (n : Nat) (coverId : Int) :
    cut n (buildCoverUrl coverId) = buildCoverUrl coverId := by
  apply cut_of_last
  intro c isLast
  obtain ⟨front, split⟩ : ∃ front,
      (buildCoverUrl coverId).toList = front ++ ['-', 'M', '.', 'j', 'p', 'g'] :=
    ⟨_, String.toList_append⟩
  have ending : (buildCoverUrl coverId).toList.getLast? = some 'g' := by
    rw [split, List.getLast?_append]
    rfl
  rw [ending] at isLast
  obtain rfl := Option.some.inj isLast
  decide

theorem cut_coverUrl (n : Nat) (coverId : Option Int) :
    (coverUrl coverId).map (cut n) = coverUrl coverId := by
  cases coverId with
  | none => rfl
  | some id =>
      by_cases zero : id = 0
      · simp [coverUrl, zero]
      · simp [coverUrl, zero, cut_buildCoverUrl]

/-- A column cuts no text to nothing. -/
theorem truthy_cut {n : Nat} (some_ : 0 < n) {text : Option String} (kept : truthy text) :
    truthy (text.map (cut n)) := by
  cases text with
  | none => exact kept
  | some value =>
      have nonempty : value ≠ "" := by simpa [truthy] using kept
      simpa [truthy] using fun empty => nonempty ((cut_eq_empty some_).mp empty)

/-- Merging a record into a book keeps what is truthy. -/
theorem retains_merged (record : WorkRecord) (title : String) (book : Book) :
    Retains book (Book.updated book.id (mergedValues record book) title book) := by
  unfold Book.updated
  split
  case isTrue => exact .refl book
  case isFalse =>
    simp only [Book.assign, if_pos, mergedValues, BookValues.cut]
    exact ⟨fun kept => truthy_cut (by omega) (any_pyOr kept), any_pyOr, any_pyOr,
      fun kept => truthy_cut (by omega) (any_pyOr kept), any_pyOr⟩

/-! ### The invariant -/

/-- No two rows agree on the columns of a unique constraint. -/
structure Distinct (c : Catalog) : Prop where
  books : (c.books.rows.map fun b => (b.tenantId, b.olWorkKey)).Nodup
  authors : (c.authors.rows.map fun a => (a.tenantId, a.olAuthorKey)).Nodup
  bookAuthors : (c.bookAuthors.rows.map fun l => (l.bookId, l.authorId)).Nodup
  bookSubjects : (c.bookSubjects.rows.map fun s => (s.bookId, s.subject)).Nodup

/-- A key whose agreement is a clash is unique in a table. -/
theorem nodup_of_table {Row Key : Type} {Clash : Row → Row → Prop} (t : Table Row Clash)
    (key : Row → Key) (clash : ∀ a b, key a = key b → Clash a b) : (t.rows.map key).Nodup :=
  List.pairwise_map.mpr (t.distinct.imp fun free same => free (clash _ _ same))

theorem distinct (c : Catalog) : Distinct c where
  books := nodup_of_table _ _ fun _ _ same => .inr (Prod.mk.inj same)
  authors := nodup_of_table _ _ fun _ _ same => .inr (Prod.mk.inj same)
  bookAuthors := nodup_of_table _ _ fun _ _ same =>
    congrArg (fun key => (⟨key.1, key.2⟩ : BookAuthor)) same
  bookSubjects := nodup_of_table _ _ fun _ _ same =>
    congrArg (fun key => (⟨key.1, key.2⟩ : BookSubject)) same

/-- Every book's `cover_url` is the one of its `cover_id`. -/
def CoversAgree (c : Catalog) : Prop :=
  ∀ b ∈ c.books.rows, b.coverUrl = coverUrl b.coverId

theorem coversAgree_empty : CoversAgree .empty := by
  intro b mem
  cases mem

/-- What one step of the catalog keeps: every book with its truthy columns, every link
and every subject. -/
structure Keeps (c after : Catalog) : Prop where
  books : ∀ b ∈ c.books.rows, ∃ b' ∈ after.books.rows,
    Book.identity b' = Book.identity b ∧ Retains b b'
  bookAuthors : ∀ l ∈ c.bookAuthors.rows, l ∈ after.bookAuthors.rows
  bookSubjects : ∀ s ∈ c.bookSubjects.rows, s ∈ after.bookSubjects.rows

variable {refuse : Refusal} {tenantId bookId newId : Uuid} {record : WorkRecord} {draws : Draws}
  {c after : Catalog}

theorem putBook_coversAgree (agree : CoversAgree c)
    (stored : putBook refuse tenantId record newId c = .ok (bookId, after)) : CoversAgree after := by
  rcases putBook_cases stored with ⟨_, _, title, _, books, inserted, rfl⟩ |
    ⟨book, title, found, _, _, rfl⟩
  · intro b mem
    rcases Table.mem_insert inserted mem with old | rfl
    · exact agree b old
    · exact cut_coverUrl 500 record.coverId
  · intro b mem
    obtain ⟨old, oldMem, rfl⟩ := List.mem_map.mp mem
    unfold Book.updated Book.assign
    split
    case isTrue => exact agree old oldMem
    case isFalse =>
      split
      case isTrue =>
        have sameCover := agree book (findBook_eq_some.mp found).1
        simp only [mergedValues, BookValues.cut, sameCover, coverUrl_merged, cut_coverUrl]
      case isFalse => exact agree old oldMem

theorem putBook_retains (stored : putBook refuse tenantId record newId c = .ok (bookId, after)) :
    ∀ b ∈ c.books.rows, ∃ b' ∈ after.books.rows,
      Book.identity b' = Book.identity b ∧ Retains b b' := by
  intro b mem
  rcases putBook_cases stored with ⟨_, _, title, _, books, inserted, rfl⟩ |
    ⟨book, title, found, _, _, rfl⟩
  · exact ⟨b, Table.mem_insert_of_mem inserted mem, rfl, .refl b⟩
  · refine ⟨_, List.mem_map_of_mem mem, identity_updated .., ?_⟩
    by_cases same : b.id = book.id
    · obtain rfl : b = book :=
        c.books.eq_of_clash (fun _ _ => Book.Clash.symm) mem (findBook_eq_some.mp found).1
          (.inl same)
      exact retains_merged record title b
    · rw [updated_of_ne same]
      exact .refl b

theorem putRecord_coversAgree {result : Unit} (agree : CoversAgree c)
    (stored : putRecord refuse tenantId record draws c = .ok (result, after)) :
    CoversAgree after := by
  obtain ⟨bookId, middle, put, ⟨_, sameBooks⟩, _⟩ := putRecord_holds stored
  rw [CoversAgree, sameBooks]
  exact putBook_coversAgree agree put

theorem keeps_putRecord {result : Unit}
    (stored : putRecord refuse tenantId record draws c = .ok (result, after)) : Keeps c after := by
  obtain ⟨bookId, middle, put, ⟨_, sameBooks⟩, grows, _⟩ := putRecord_holds stored
  refine ⟨?_, fun _ mem => grows.bookAuthors.subset mem, fun _ mem => grows.bookSubjects.subset mem⟩
  rw [sameBooks]
  exact putBook_retains put

/-! ### No constraint is violated -/

/-- `uuid4` draws identifiers that are not in use. -/
structure FreshDraws (draws : Draws) (c : Catalog) : Prop where
  book : ∀ b ∈ c.books.rows, b.id ≠ draws.bookId
  author : ∀ a ∈ c.authors.rows, ∀ i, a.id ≠ draws.authorId i
  distinct : Function.Injective draws.authorId

/-- The id of a work's book: of the one that has the key, or the one that is drawn. -/
def bookIdFor (tenantId : Uuid) (olWorkKey : String) (newId : Uuid) (c : Catalog) : Uuid :=
  (findBook tenantId olWorkKey c).elim newId Book.id

/-- The key, the author keys and the subjects of a work are apart as their columns cut them,
from each other and from what is stored. -/
structure KeepsApart (tenantId : Uuid) (work : WorkInput) (c : Catalog) : Prop where
  book : CutsApart 50 (fun key => (findBook tenantId key c).isSome) [work.result.workKey]
  authors : CutsApart 50 (Known tenantId c) work.olAuthorKeys
  subjects : CutsApart 500
    (HasSubject (bookIdFor tenantId work.result.workKey work.draws.bookId c) · c)
    (work.subjects.take 50)

/-- Only the run of a statement finds a violation; a refused value is a data error. -/
theorem written_unique {α : Type} {write : CatalogWrite} {a : α}
    (violated : written refuse write a c = .error .uniqueViolation) :
    write.cut.run c = .error .uniqueViolation := by
  unfold written CatalogWrite.send at violated
  cases objection : refuse write with
  | some message => simp [objection, Except.map] at violated
  | none => cases ran : write.cut.run c <;> simp_all [Except.map]

/-- An insert that violates a constraint clashes with a row. -/
theorem insert_violates {Row : Type} {Clash : Row → Row → Prop} [DecidableRel Clash]
    {t : Table Row Clash} {row : Row} {make : Table Row Clash → Catalog}
    (violated : (orUniqueViolation (t.insert row) >>= fun u => pure (make u)) =
      .error .uniqueViolation) : ∃ a ∈ t.rows, Clash a row := by
  by_contra free
  have accepted : ∀ a ∈ t.rows, ¬ Clash a row := fun a mem clash => free ⟨a, mem, clash⟩
  rw [Table.insert, dif_pos accepted] at violated
  cases violated

theorem putBook_unique (fresh : ∀ b ∈ c.books.rows, b.id ≠ newId)
    (apart : CutsApart 50 (fun key => (findBook tenantId key c).isSome) [record.workKey]) :
    putBook refuse tenantId record newId c ≠ .error .uniqueViolation := by
  intro violated
  cases found : findBook tenantId record.workKey c with
  | none =>
      have free := apart.head (by simp [found])
      rw [putBook_of_none found] at violated
      have ran := written_unique violated
      rw [CatalogWrite.cut, CatalogWrite.run] at ran
      cases titled : (newValues record).cut.title with
      | none => simp [titled] at ran
      | some title =>
          rw [titled] at ran
          obtain ⟨b, mem, id | ⟨tenant, key⟩⟩ := insert_violates ran
          · exact fresh b mem id
          · exact free (Option.isSome_iff_exists.mpr
              ⟨b, findBook_eq_some.mpr ⟨mem, tenant, key⟩⟩)
  | some book =>
      rw [putBook_of_some found] at violated
      split at violated
      case isTrue =>
        have ran := written_unique violated
        rw [CatalogWrite.cut, CatalogWrite.run] at ran
        split at ran <;> cases ran
      case isFalse => cases violated

theorem putAuthor_unique {olAuthorKey : String} {name : Option String} {rest : List String}
    (fresh : ∀ a ∈ c.authors.rows, a.id ≠ newId)
    (apart : CutsApart 50 (Known tenantId c) (olAuthorKey :: rest)) :
    putAuthor refuse tenantId olAuthorKey name newId c ≠ .error .uniqueViolation := by
  intro violated
  cases found : findAuthor tenantId olAuthorKey c with
  | none =>
      have free := apart.head (findAuthor_eq_none_iff.mp found)
      rw [putAuthor_of_none found] at violated
      have ran := written_unique violated
      cases name with
      | none => cases ran
      | some text =>
          rw [CatalogWrite.cut, Option.map_some, CatalogWrite.run] at ran
          obtain ⟨a, mem, id | ⟨tenant, key⟩⟩ := insert_violates ran
          · exact fresh a mem id
          · exact free ⟨a, mem, tenant, key⟩
  | some author =>
      rw [putAuthor_of_some found] at violated
      cases violated

theorem putLink_unique {authorId : Uuid} :
    putLink refuse bookId authorId c ≠ .error .uniqueViolation := by
  intro violated
  by_cases linked : ⟨bookId, authorId⟩ ∈ c.bookAuthors.rows
  case pos =>
    rw [putLink_of_mem linked] at violated
    cases violated
  case neg =>
    rw [putLink_of_none (findLink_isNone.mpr linked)] at violated
    have ran := written_unique violated
    rw [CatalogWrite.cut, CatalogWrite.run] at ran
    split at ran
    case isTrue =>
      obtain ⟨l, mem, same⟩ := insert_violates ran
      exact linked (same ▸ mem)
    case isFalse => cases ran

theorem putSubject_unique {subject : String} {rest : List String}
    (apart : CutsApart 500 (HasSubject bookId · c) (subject :: rest)) :
    putSubject refuse bookId subject c ≠ .error .uniqueViolation := by
  intro violated
  by_cases has : HasSubject bookId subject c
  case pos =>
    rw [putSubject_of_mem has] at violated
    cases violated
  case neg =>
    have free := apart.head has
    rw [putSubject_of_none (findSubject_isNone.mpr has)] at violated
    have ran := written_unique violated
    rw [CatalogWrite.cut, CatalogWrite.run] at ran
    split at ran
    case isTrue =>
      obtain ⟨s, mem, same⟩ := insert_violates ran
      rw [same] at mem
      exact free mem
    case isFalse => cases ran

/-- A sequence fails where its first part fails or where what follows fails. -/
theorem bind_run_ne_error {α β : Type} {transformer : CatalogM α} {next : α → CatalogM β}
    {e : DbError} (first : transformer c ≠ .error e)
    (second : ∀ a middle, transformer c = .ok (a, middle) → next a middle ≠ .error e) :
    (transformer >>= next) c ≠ .error e := by
  change transformer c >>= (fun reached => next reached.1 reached.2) ≠ _
  cases moved : transformer c with
  | error other =>
      rw [moved] at first
      exact fun failed => first (congrArg Except.error (Except.error.inj failed))
  | ok reached => exact second reached.1 reached.2 moved

/-- A loop does not fail where no round does, whatever is left to do. -/
theorem forM_ne_error {ι : Type} {body : ι → CatalogM PUnit} {e : DbError}
    (Inv : List ι → Catalog → Prop)
    (round : ∀ i rest c, Inv (i :: rest) c → body i c ≠ .error e)
    (next : ∀ i rest c result after, Inv (i :: rest) c → body i c = .ok (result, after) →
      Inv rest after)
    {items : List ι} (start : Inv items c) : items.forM body c ≠ .error e := by
  induction items generalizing c with
  | nil => nofun
  | cons i rest ih =>
      exact bind_run_ne_error (round i rest c start) fun _ _ ran => ih (next i rest c _ _ start ran)

/-- The identifiers still to be drawn are not in use, and the rounds draw different ones. -/
structure CallsFresh (draws : Draws) (calls : List AuthorCall) (c : Catalog) : Prop where
  unused : ∀ call ∈ calls, ∀ a ∈ c.authors.rows, a.id ≠ draws.authorId call.index
  apart : calls.Pairwise fun a b => draws.authorId a.index ≠ draws.authorId b.index

/-- The author a call stores is the only one that is added. -/
theorem mem_putAuthorCall {call : AuthorCall} {result : Unit}
    (stored : putAuthorCall refuse tenantId bookId draws call c = .ok (result, after))
    {a : Author} (mem : a ∈ after.authors.rows) :
    a ∈ c.authors.rows ∨ a.id = draws.authorId call.index ∧
      a.olAuthorKey = cut 50 (call.olAuthorKey draws) ∧
        ∃ text, call.name = some text ∧ a.name = cut 500 text := by
  obtain ⟨authorId, middle, put, linked⟩ := bind_run_eq_ok.mp stored
  rw [(putLink_grows linked).2.1] at mem
  rcases putAuthor_cases put with ⟨_, _, _, rfl⟩ | ⟨_, rfl, text, named, authors, inserted, rfl⟩
  · exact .inl mem
  · rcases Table.mem_insert inserted mem with old | rfl
    · exact .inl old
    · exact .inr ⟨rfl, rfl, text, named, rfl⟩

theorem CallsFresh.next {call : AuthorCall} {rest : List AuthorCall} {result : Unit}
    (fresh : CallsFresh draws (call :: rest) c)
    (stored : putAuthorCall refuse tenantId bookId draws call c = .ok (result, after)) :
    CallsFresh draws rest after := by
  obtain ⟨first, apart⟩ := List.pairwise_cons.mp fresh.apart
  refine ⟨fun later mem a aMem => ?_, apart⟩
  rcases mem_putAuthorCall stored aMem with old | ⟨id, _⟩
  · exact fresh.unused later (List.mem_cons_of_mem _ mem) a old
  · rw [id]
    exact first later mem

theorem callsFresh_of_fresh (record : WorkRecord) (fresh : FreshDraws draws c) :
    CallsFresh draws record.authorCalls c := by
  refine ⟨fun call _ a mem => fresh.author a mem call.index, List.pairwise_map.mpr ?_⟩
  have indices : (record.authorNames.zipIdx.map Prod.snd).Pairwise (· ≠ ·) := by
    rw [List.zipIdx_map_snd]
    exact List.nodup_range'
  exact (List.pairwise_map.mp indices).imp fun different same => different (fresh.distinct same)

/-- What the author loop needs to meet no other author. -/
structure CallsApart (tenantId : Uuid) (draws : Draws) (calls : List AuthorCall) (c : Catalog) :
    Prop where
  fresh : CallsFresh draws calls c
  keys : CutsApart 50 (Known tenantId c) (calls.map (·.olAuthorKey draws))

theorem putAuthorCall_unique {call : AuthorCall} {rest : List AuthorCall}
    (apart : CallsApart tenantId draws (call :: rest) c) :
    putAuthorCall refuse tenantId bookId draws call c ≠ .error .uniqueViolation :=
  bind_run_ne_error (putAuthor_unique (apart.fresh.unused call List.mem_cons_self) apart.keys)
    fun _ _ _ => putLink_unique

theorem CallsApart.next {call : AuthorCall} {rest : List AuthorCall} {result : Unit}
    (apart : CallsApart tenantId draws (call :: rest) c)
    (stored : putAuthorCall refuse tenantId bookId draws call c = .ok (result, after)) :
    CallsApart tenantId draws rest after := by
  refine ⟨apart.fresh.next stored, apart.keys.next ?_⟩
  rintro other ⟨a, mem, tenant, rfl⟩
  rcases mem_putAuthorCall stored mem with old | ⟨_, key, _⟩
  · exact .inl ⟨a, old, tenant, rfl⟩
  · exact .inr key

theorem cutsApart_putSubject {subject : String} {rest : List String} {result : Unit}
    (apart : CutsApart 500 (HasSubject bookId · c) (subject :: rest))
    (stored : putSubject refuse bookId subject c = .ok (result, after)) :
    CutsApart 500 (HasSubject bookId · after) rest := by
  apply apart.next
  intro other has
  rcases putSubject_cases stored with ⟨_, rfl⟩ | ⟨_, _, bookSubjects, inserted, rfl⟩
  · exact .inl has
  · rcases Table.mem_insert inserted has with old | same
    · exact .inl old
    · exact .inr (congrArg BookSubject.subject same)

theorem bookSubjects_putBook
    (stored : putBook refuse tenantId record newId c = .ok (bookId, after)) :
    after.bookSubjects = c.bookSubjects := by
  rcases putBook_cases stored with ⟨_, _, _, _, _, _, rfl⟩ | ⟨_, _, _, _, _, rfl⟩ <;> rfl

theorem bookSubjects_putAuthorCall {call : AuthorCall} {result : Unit}
    (stored : putAuthorCall refuse tenantId bookId draws call c = .ok (result, after)) :
    after.bookSubjects = c.bookSubjects := by
  obtain ⟨authorId, middle, found, linked⟩ := bind_run_eq_ok.mp stored
  have kept : middle.bookSubjects = c.bookSubjects := by
    rcases putAuthor_cases found with ⟨_, _, _, rfl⟩ | ⟨_, _, _, _, _, _, rfl⟩ <;> rfl
  rw [← kept]
  rcases putLink_cases linked with ⟨_, rfl⟩ | ⟨_, _, _, _, _, rfl⟩ <;> rfl

theorem id_putBook (stored : putBook refuse tenantId record newId c = .ok (bookId, after)) :
    bookId = bookIdFor tenantId record.workKey newId c := by
  unfold bookIdFor
  rcases putBook_cases stored with ⟨missing, rfl, _⟩ | ⟨book, _, found, rfl, _⟩
  · rw [missing]
    rfl
  · rw [found]
    rfl

/-- With fresh identifiers and texts that stay apart no statement of a work violates a unique
constraint. -/
theorem putRecord_unique {work : WorkInput} (enriched : enrich work.result work.answers = .ok record)
    (fresh : FreshDraws work.draws c) (apart : KeepsApart tenantId work c) :
    putRecord work.refuse tenantId record work.draws c ≠ .error .uniqueViolation := by
  obtain ⟨key, subjects, keys⟩ := enriched_fields enriched
  obtain ⟨bookApart, authorsApart, subjectsApart⟩ := apart
  rw [← key] at bookApart subjectsApart
  rw [← keys] at authorsApart
  rw [← subjects] at subjectsApart
  apply bind_run_ne_error (putBook_unique fresh.book bookApart)
  intro bookId middle put
  have sameAuthors : middle.authors = c.authors := by
    rcases putBook_cases put with ⟨_, _, _, _, _, _, rfl⟩ | ⟨_, _, _, _, _, rfl⟩ <;> rfl
  have calls : CallsApart tenantId work.draws record.authorCalls middle := by
    have before := callsFresh_of_fresh record fresh
    unfold Known at authorsApart
    rw [← sameAuthors] at authorsApart
    exact ⟨⟨sameAuthors ▸ before.unused, before.apart⟩, authorsApart⟩
  refine bind_run_ne_error ?_ fun _ linked stored => ?_
  · exact forM_ne_error (CallsApart tenantId work.draws) (fun _ _ _ => putAuthorCall_unique)
      (fun _ _ _ _ _ => CallsApart.next) calls
  · have sameSubjects : linked.bookSubjects = c.bookSubjects :=
      (forM_keeps Catalog.bookSubjects (fun _ _ _ _ => bookSubjects_putAuthorCall) stored).trans
        (bookSubjects_putBook put)
    unfold HasSubject at subjectsApart
    rw [← id_putBook put, ← sameSubjects] at subjectsApart
    exact forM_ne_error (fun subjects c => CutsApart 500 (HasSubject bookId · c) subjects)
      (fun _ _ _ => putSubject_unique) (fun _ _ _ _ _ => cutsApart_putSubject) subjectsApart

/-! ### Runs of calls -/

/-- A call of `_enrich_and_store`, with what its environment does. -/
structure Call where
  tenantId : Uuid
  work : WorkInput

/-- A call on the open session that raises nothing but a unique violation, if that. -/
def CallStep (s : Session Database Write) (call : Call) (t : Session Database Write) : Prop :=
  SessionM.runOn (enrichAndStore call.tenantId call.work) s = (.ok (), t) ∨
    SessionM.runOn (enrichAndStore call.tenantId call.work) s =
      (.error (.database .uniqueViolation), t)

/-- The identifiers a call draws are fresh, and its texts stay apart. -/
structure Admissible (s : Session Database Write) (call : Call) : Prop where
  fresh : FreshDraws call.work.draws s.tx.catalog
  apart : KeepsApart call.tenantId call.work s.tx.catalog

/-- A healthy session with nothing pending, over a catalog whose covers agree. -/
def Sound (s : Session Database Write) : Prop :=
  s.pending = [] ∧ s.failed = false ∧ CoversAgree s.tx.catalog

/-- A call on a sound session stores its work. -/
theorem sound_step {s t : Session Database Write} {call : Call} (sound : Sound s)
    (step : Guarded Admissible CallStep s call t) :
    SessionM.runOn (enrichAndStore call.tenantId call.work) s = (.ok (), t) ∧ Sound t ∧
      Keeps s.tx.catalog t.tx.catalog := by
  obtain ⟨committed, tx, pending, failed⟩ := s
  obtain ⟨rfl, rfl, agree⟩ := sound
  obtain ⟨⟨fresh, apart⟩, ended⟩ := step
  have ran := runOn_enrichAndStore (ready_clean committed tx) call.tenantId call.work
  rw [CallStep, ran] at ended
  unfold putWork at ran ended
  cases enriched : enrich call.work.result call.work.answers with
  | error failure => simp [enriched] at ended
  | ok record =>
      have accepted := putRecord_unique enriched fresh apart
      simp only [enriched, StateT.run] at ran ended
      cases put : putRecord call.work.refuse call.tenantId record call.work.draws tx.catalog with
      | error e =>
          rw [put] at ended accepted
          rcases ended with returned | violated
          · cases (Prod.mk.inj returned).1
          · obtain rfl : e = .uniqueViolation := by simpa using (Prod.mk.inj violated).1
            exact absurd rfl accepted
      | ok reached =>
          rw [put] at ended ran
          rcases ended with returned | violated
          · obtain rfl := (Prod.mk.inj returned).2
            exact ⟨ran, ⟨rfl, rfl, putRecord_coversAgree agree put⟩, keeps_putRecord put⟩
          · cases (Prod.mk.inj violated).1

/-- For every sequence of calls that raise at most a unique violation, by any tenants and
with any results, answers and repetitions of texts that stay apart: in the state reached the
constraints hold and the covers agree, and every further call returns and keeps what the
catalog has. -/
theorem representation_invariant {db : Database} (start : CoversAgree db.catalog)
    {calls : List Call} {s : Session Database Write}
    (run : Run (Guarded Admissible CallStep) (.opened db) calls s) :
    Distinct s.tx.catalog ∧ CoversAgree s.tx.catalog ∧
      ∀ call t, Guarded Admissible CallStep s call t →
        SessionM.runOn (enrichAndStore call.tenantId call.work) s = (.ok (), t) ∧
          Keeps s.tx.catalog t.tx.catalog := by
  have sound : Sound s :=
    run.invariant Sound (fun _ _ _ sound step => (sound_step sound step).2.1) ⟨rfl, rfl, start⟩
  refine ⟨distinct _, sound.2.2, fun call t step => ?_⟩
  obtain ⟨returned, _, keeps⟩ := sound_step sound step
  exact ⟨returned, keeps⟩

/-- A work that names one author key three times and one subject twice. -/
def repetitive (coverId : Int) (id : Uuid) : Call where
  tenantId := 1
  work :=
    { result :=
        { workKey := "OL1W"
          title := some "One"
          authorNames := some ["Ann", "Anne", "Bob"]
          authorKeys := ["OL1A", "OL1A", "OL1A"]
          firstPublishYear := none
          coverId := some coverId
          subjects := ["fiction", "fiction"]
          isbn := none }
      answers := ⟨.error (.openLibraryError ""), fun _ => .error (.openLibraryError "")⟩
      draws := ⟨id, fun i => id + i + 1, fun _ => ""⟩
      refuse := Refusal.never }

/-- The session a call leaves. -/
def sessionAfter (call : Call) (s : Session Database Write) : Session Database Write :=
  (SessionM.runOn (enrichAndStore call.tenantId call.work) s).2

theorem callStep_of_returned {s : Session Database Write} {call : Call}
    (returned : (SessionM.runOn (enrichAndStore call.tenantId call.work) s).1 = .ok ()) :
    CallStep s call (sessionAfter call s) :=
  .inl (Prod.ext returned rfl)

/-- The session after the repetitive work was stored without a cover. -/
def storedOnce : Session Database Write := sessionAfter (repetitive 0 10) (.opened .empty)

/-- None of its texts is long enough to be cut. -/
theorem keepsApart_repetitive (coverId : Int) (id : Uuid) (c : Catalog) :
    KeepsApart 1 (repetitive coverId id).work c where
  book := cutsApart_of_whole (show ∀ key ∈ ["OL1W"], cut 50 key = key by decide)
  authors := cutsApart_of_whole (show ∀ key ∈ ["OL1A", "OL1A", "OL1A"], cut 50 key = key by decide)
  subjects := cutsApart_of_whole
    (show ∀ subject ∈ ["fiction", "fiction"], cut 500 subject = subject by decide)

/-- The repetitive work is stored without a cover, then again with one. -/
theorem repetitions_violate_nothing :
    Distinct storedOnce.tx.catalog ∧ CoversAgree storedOnce.tx.catalog ∧
      Keeps storedOnce.tx.catalog (sessionAfter (repetitive 5 20) storedOnce).tx.catalog := by
  have apart (id : Uuid) (cover : Int) :
      Function.Injective (repetitive cover id).work.draws.authorId := fun _ _ same =>
    Nat.add_left_cancel (Nat.succ.inj same)
  have first : Guarded Admissible CallStep (.opened .empty) (repetitive 0 10) storedOnce :=
    ⟨⟨⟨by decide, fun a mem => (List.not_mem_nil mem).elim, apart 10 0⟩,
      keepsApart_repetitive 0 10 _⟩, callStep_of_returned (by decide +kernel)⟩
  have small : ∀ a ∈ storedOnce.tx.catalog.authors.rows, a.id < 21 := by decide +kernel
  have second : Guarded Admissible CallStep storedOnce (repetitive 5 20)
      (sessionAfter (repetitive 5 20) storedOnce) := by
    refine ⟨⟨⟨by decide +kernel, fun a mem i same => ?_, apart 20 5⟩,
      keepsApart_repetitive 5 20 _⟩, callStep_of_returned (by decide +kernel)⟩
    have above : 21 ≤ (repetitive 5 20).work.draws.authorId i :=
      Nat.succ_le_succ (Nat.le_add_right 20 i)
    exact absurd (small a mem) (Nat.not_lt.mpr (same ▸ above))
  obtain ⟨distinct, agree, next⟩ :=
    representation_invariant coversAgree_empty (.cons first (.nil _))
  exact ⟨distinct, agree, (next _ _ second).2⟩

/-- A key of 50 characters. -/
def fullKey : String := String.ofList (List.replicate 50 'k')

/-- Two authors; the key of the second is that of the first, with a space. -/
def spacedKeys : Call :=
  let call := repetitive 7 10
  { call with
    work := { call.work with
      result := { call.work.result with
        authorNames := some ["Ann", "Bob"]
        authorKeys := [fullKey, fullKey ++ " "] } } }

/-- The column cuts the space off, and the second author clashes with the first, whom the
look-up under the whole key did not find. -/
theorem trailing_space_violates :
    FreshDraws spacedKeys.work.draws (.empty : Catalog) ∧
      CallStep (.opened .empty) spacedKeys (sessionAfter spacedKeys (.opened .empty)) ∧
      (SessionM.runOn (enrichAndStore spacedKeys.tenantId spacedKeys.work) (.opened .empty)).1 =
        .error (.database .uniqueViolation) := by
  have violated :
      (SessionM.runOn (enrichAndStore spacedKeys.tenantId spacedKeys.work) (.opened .empty)).1 =
        .error (.database .uniqueViolation) := by decide +kernel
  refine ⟨⟨nofun, nofun, fun _ _ same => ?_⟩, .inr (Prod.ext violated rfl), violated⟩
  exact Nat.add_left_cancel (Nat.succ.inj same)

end TenantLibrary.Ingestion
