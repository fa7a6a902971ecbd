import TenantLibrary.Ingestion.Representation

/-!
When a record can be stored, and what it leaves.

A record that the database refuses no row of is stored exactly when it has a title and no
new author is without a name (`stored_iff`). `row_of_stored` is the row of its book, and
`authors_of_stored` says where the authors of the catalog come from.
-/

namespace TenantLibrary.Ingestion

open TenantLibrary.Lib TenantLibrary.OpenLibrary TenantLibrary.Store

variable {refuse : Refusal} {tenantId bookId newId : Uuid} {record : WorkRecord} {draws : Draws}
  {c after : Catalog}

/-! ### When a record can be stored -/

/-- The database refuses no row of the record, unless for a column that is left empty. -/
def RowsAccepted (refuse : Refusal) (tenantId : Uuid) (record : WorkRecord) (draws : Draws)
    (c : Catalog) : Prop :=
  ∀ e, putRecord refuse tenantId record draws c = .error e → e = .notNullViolation

/-- An author without a name is known, or an author before it has left its key. -/
def CallsNamed (tenantId : Uuid) (draws : Draws) (c : Catalog) (calls : List AuthorCall) : Prop :=
  ∀ (i : Nat) (call : AuthorCall), calls[i]? = some call → call.name = none →
    Known tenantId c (call.olAuthorKey draws) ∨
      ∃ j < i, ∃ earlier, calls[j]? = some earlier ∧
        cut 50 (earlier.olAuthorKey draws) = call.olAuthorKey draws

/-- Storing an author makes the key known that its column keeps, and no other. -/
theorem known_putAuthorCall {call : AuthorCall} {result : Unit} (whole : c.Whole)
    (stored : putAuthorCall refuse tenantId bookId draws call c = .ok (result, after))
    (olAuthorKey : String) :
    Known tenantId after olAuthorKey ↔
      Known tenantId c olAuthorKey ∨ olAuthorKey = cut 50 (call.olAuthorKey draws) := by
  obtain ⟨authorId, middle, put, linked⟩ := bind_run_eq_ok.mp stored
  unfold Known
  rw [(putLink_grows linked).2.1]
  rcases putAuthor_cases put with ⟨author, found, _, rfl⟩ | ⟨_, _, text, _, authors, inserted, rfl⟩
  · obtain ⟨mem, tenant, key⟩ := findAuthor_eq_some.mp found
    constructor
    · exact .inl
    · rintro (known | rfl)
      · exact known
      · rw [← key, (whole.authors author mem).olAuthorKey]
        exact ⟨author, mem, tenant, rfl⟩
  · rw [(Table.insert_eq_some.mp inserted).2]
    simp only [List.mem_append, List.mem_singleton, or_and_right, exists_or, exists_eq_left,
      true_and, @eq_comm _ olAuthorKey]

theorem callsNamed_cons_iff {call : AuthorCall} {rest : List AuthorCall} {middle : Catalog}
    (grown : ∀ olAuthorKey, Known tenantId middle olAuthorKey ↔
      Known tenantId c olAuthorKey ∨ olAuthorKey = cut 50 (call.olAuthorKey draws)) :
    CallsNamed tenantId draws c (call :: rest) ↔
      (call.name = none → Known tenantId c (call.olAuthorKey draws)) ∧
        CallsNamed tenantId draws middle rest := by
  constructor
  · intro named
    refine ⟨fun nameless => ?_, fun i later found nameless => ?_⟩
    · rcases named 0 call rfl nameless with known | ⟨j, before, _⟩
      · exact known
      · exact absurd before (Nat.not_lt_zero j)
    · rcases named (i + 1) later found nameless with known | ⟨j, before, earlier, isEarlier, same⟩
      · exact .inl ((grown _).mpr (.inl known))
      · cases j with
        | zero =>
            obtain rfl := Option.some.inj isEarlier
            exact .inl ((grown _).mpr (.inr same.symm))
        | succ j => exact .inr ⟨j, Nat.lt_of_succ_lt_succ before, earlier, isEarlier, same⟩
  · rintro ⟨first, named⟩ i later found nameless
    cases i with
    | zero =>
        obtain rfl := Option.some.inj found
        exact .inl (first nameless)
    | succ i =>
        rcases named i later found nameless with known | ⟨j, before, earlier, isEarlier, same⟩
        · rcases (grown _).mp known with known | same
          · exact .inl known
          · exact .inr ⟨0, Nat.succ_pos i, call, rfl, same.symm⟩
        · exact .inr ⟨j + 1, Nat.succ_lt_succ before, earlier, isEarlier, same⟩

theorem callsNamed_congr {middle : Catalog} (same : middle.authors = c.authors)
    {calls : List AuthorCall} :
    CallsNamed tenantId draws middle calls ↔ CallsNamed tenantId draws c calls := by
  unfold CallsNamed Known
  rw [same]

/-- Authors that were stored were named. -/
theorem callsNamed_of_stored {calls : List AuthorCall} {result : PUnit} (whole : c.Whole)
    (stored : calls.forM (putAuthorCall refuse tenantId bookId draws) c = .ok (result, after)) :
    CallsNamed tenantId draws c calls := by
  induction calls generalizing c with
  | nil => intro i call found; cases found
  | cons call rest ih =>
      obtain ⟨_, middle, first, remaining⟩ := bind_run_eq_ok.mp stored
      refine (callsNamed_cons_iff (known_putAuthorCall whole first)).mpr
        ⟨fun nameless => ?_, ih (putAuthorCall_keeps Catalog.Whole.send whole first) remaining⟩
      obtain ⟨authorId, _, put, _⟩ := bind_run_eq_ok.mp first
      rcases putAuthor_cases put with ⟨author, found, _⟩ | ⟨_, _, text, named, _⟩
      · exact ⟨author, findAuthor_eq_some.mp found⟩
      · rw [nameless] at named
        cases named

/-- A refusal that is not about a value comes from the run of the statement. -/
theorem run_of_written {α : Type} {write : CatalogWrite} {a : α}
    (failed : written refuse write a c = .error .notNullViolation) :
    write.cut.run c = .error .notNullViolation := by
  unfold written CatalogWrite.send at failed
  cases objection : refuse write with
  | some message => simp [objection, Except.map] at failed
  | none => cases ran : write.cut.run c <;> simp_all [Except.map]

/-- An insert leaves no column empty. -/
theorem insert_ne_notNull {Row : Type} {Clash : Row → Row → Prop} [DecidableRel Clash]
    {t : Table Row Clash} {row : Row} {make : Table Row Clash → Catalog} :
    (orUniqueViolation (t.insert row) >>= fun u => pure (make u)) ≠ .error .notNullViolation := by
  cases t.insert row <;> nofun

theorem putBook_ne_notNull {title : String} (titled : record.title = some title) :
    putBook refuse tenantId record newId c ≠ .error .notNullViolation := by
  intro failed
  cases found : findBook tenantId record.workKey c with
  | none =>
      have ran := run_of_written (putBook_of_none found ▸ failed)
      have written : (newValues record).cut.title = some (cut 1000 title) :=
        cut_title_eq_some.mpr ⟨title, titled, rfl⟩
      rw [CatalogWrite.cut, CatalogWrite.run, written] at ran
      exact insert_ne_notNull ran
  | some book =>
      rw [putBook_of_some found] at failed
      split at failed
      case isTrue =>
        have ran := run_of_written failed
        have written : (mergedValues record book).cut.title = some (cut 1000 title) :=
          cut_title_eq_some.mpr ⟨title, titled, rfl⟩
        rw [CatalogWrite.cut, CatalogWrite.run, written] at ran
        cases ran
      case isFalse => cases failed

theorem putAuthor_ne_notNull {olAuthorKey : String} {name : Option String}
    (named : name = none → Known tenantId c olAuthorKey) :
    putAuthor refuse tenantId olAuthorKey name newId c ≠ .error .notNullViolation := by
  intro failed
  cases found : findAuthor tenantId olAuthorKey c with
  | none =>
      have unknown := findAuthor_eq_none_iff.mp found
      obtain ⟨text, rfl⟩ : ∃ text, name = some text :=
        Option.ne_none_iff_exists'.mp fun nameless => unknown (named nameless)
      have ran := run_of_written (putAuthor_of_none found ▸ failed)
      exact insert_ne_notNull ran
  | some author =>
      rw [putAuthor_of_some found] at failed
      cases failed

theorem putLink_ne_notNull {authorId : Uuid} :
    putLink refuse bookId authorId c ≠ .error .notNullViolation := by
  intro failed
  by_cases absent : (findLink bookId authorId c).isNone
  · have ran := run_of_written (putLink_of_none absent ▸ failed)
    rw [CatalogWrite.cut, CatalogWrite.run] at ran
    split at ran
    · exact insert_ne_notNull ran
    · cases ran
  · rw [putLink_of_some absent] at failed
    cases failed

theorem putSubject_ne_notNull {subject : String} :
    putSubject refuse bookId subject c ≠ .error .notNullViolation := by
  intro failed
  by_cases absent : (findSubject bookId subject c).isNone
  · have ran := run_of_written (putSubject_of_none absent ▸ failed)
    rw [CatalogWrite.cut, CatalogWrite.run] at ran
    split at ran
    · exact insert_ne_notNull ran
    · cases ran
  · rw [putSubject_of_some absent] at failed
    cases failed

/-- What the author loop needs to leave no name empty. -/
structure CallsReady (tenantId : Uuid) (draws : Draws) (calls : List AuthorCall) (c : Catalog) :
    Prop where
  whole : c.Whole
  named : CallsNamed tenantId draws c calls

theorem putAuthorCall_ne_notNull {call : AuthorCall} {rest : List AuthorCall}
    (ready : CallsReady tenantId draws (call :: rest) c) :
    putAuthorCall refuse tenantId bookId draws call c ≠ .error .notNullViolation := by
  refine bind_run_ne_error (putAuthor_ne_notNull fun nameless => ?_) fun _ _ _ => putLink_ne_notNull
  rcases ready.named 0 call rfl nameless with known | ⟨j, before, _⟩
  · exact known
  · exact absurd before (Nat.not_lt_zero j)

theorem CallsReady.next {call : AuthorCall} {rest : List AuthorCall} {result : Unit}
    (ready : CallsReady tenantId draws (call :: rest) c)
    (stored : putAuthorCall refuse tenantId bookId draws call c = .ok (result, after)) :
    CallsReady tenantId draws rest after where
  whole := putAuthorCall_keeps Catalog.Whole.send ready.whole stored
  named := ((callsNamed_cons_iff (known_putAuthorCall ready.whole stored)).mp ready.named).2

theorem authors_putBook (put : putBook refuse tenantId record newId c = .ok (bookId, after)) :
    after.authors = c.authors := by
  rcases putBook_cases put with ⟨_, _, _, _, _, _, rfl⟩ | ⟨_, _, _, _, _, rfl⟩ <;> rfl

theorem putRecord_ne_notNull (whole : c.Whole) {title : String} (titled : record.title = some title)
    (named : CallsNamed tenantId draws c record.authorCalls) :
    putRecord refuse tenantId record draws c ≠ .error .notNullViolation := by
  apply bind_run_ne_error (putBook_ne_notNull titled)
  intro bookId middle put
  have ready : CallsReady tenantId draws record.authorCalls middle :=
    ⟨putBook_keeps Catalog.Whole.send whole put,
      (callsNamed_congr (authors_putBook put)).mpr named⟩
  refine bind_run_ne_error ?_ fun _ linked _ => ?_
  · exact forM_ne_error (CallsReady tenantId draws) (fun _ _ _ => putAuthorCall_ne_notNull)
      (fun _ _ _ _ _ => CallsReady.next) ready
  · exact forM_ne_error (fun _ _ => True) (fun _ _ _ _ => putSubject_ne_notNull)
      (fun _ _ _ _ _ _ _ => trivial) trivial

/-- A record is stored exactly when the database refuses none of its rows, it has a title and
its authors are named. -/
theorem stored_iff (whole : c.Whole) :
    (∃ after, putRecord refuse tenantId record draws c = .ok ((), after)) ↔
      RowsAccepted refuse tenantId record draws c ∧ record.title.isSome = true ∧
        CallsNamed tenantId draws c record.authorCalls := by
  constructor
  · rintro ⟨after, stored⟩
    obtain ⟨bookId, middle, put, rest⟩ := bind_run_eq_ok.mp stored
    obtain ⟨_, linked, authors, _⟩ := bind_run_eq_ok.mp rest
    refine ⟨fun e failed => ?_, ?_, (callsNamed_congr (authors_putBook put)).mp
      (callsNamed_of_stored (putBook_keeps Catalog.Whole.send whole put) authors)⟩
    · cases failed.symm.trans stored
    · rcases putBook_cases put with ⟨_, _, title, titled, _⟩ | ⟨_, title, _, _, titled, _⟩ <;>
        simp [titled]
  · rintro ⟨accepted, titled, named⟩
    obtain ⟨title, titled⟩ := Option.isSome_iff_exists.mp titled
    cases outcome : putRecord refuse tenantId record draws c with
    | ok reached => exact ⟨reached.2, rfl⟩
    | error e =>
        obtain rfl := accepted e outcome
        exact absurd outcome (putRecord_ne_notNull whole titled named)

/-! ### What a stored record leaves -/

/-- The row of a stored record: a new book, or the old one with the merged columns. -/
def RowOf (tenantId : Uuid) (record : WorkRecord) (newId : Uuid) (title : String) (c : Catalog)
    (b : Book) : Prop :=
  match findBook tenantId record.workKey c with
  | none => b = insertedBook newId tenantId record title
  | some old => b = old.assign old.id (mergedValues record old).cut (cut 1000 title)

/-- A whole row is the same whether the values it has are written or not. -/
theorem updated_of_whole {book : Book} {title : String} (whole : book.Whole)
    (titled : record.title = some title) :
    Book.updated book.id (mergedValues record book) title book =
      book.assign book.id (mergedValues record book).cut (cut 1000 title) := by
  unfold Book.updated
  split
  case isTrue same =>
    have sameTitle : title = book.title :=
      Option.some.inj (titled.symm.trans (congrArg BookValues.title same))
    rw [same, sameTitle, Book.assign, if_pos rfl]
    simp [BookValues.cut, Book.values, whole.isbn, whole.title, whole.coverUrl]
  case isFalse => rfl

/-- The row of the book, and the books that are there. -/
theorem row_of_stored (whole : c.Whole)
    (stored : putRecord refuse tenantId record draws c = .ok ((), after)) :
    ∃ b title, record.title = some title ∧ b ∈ after.books.rows ∧
      RowOf tenantId record draws.bookId title c b ∧ Holds b.id tenantId record draws after ∧
        ∀ other, findBook tenantId record.workKey after = some other → other = b := by
  obtain ⟨bookId, middle, put, ⟨_, sameBooks⟩, _, holds⟩ := putRecord_holds stored
  unfold RowOf
  rcases putBook_cases put with ⟨missing, rfl, title, titled, books, inserted, rfl⟩ |
    ⟨old, title, found, rfl, titled, rfl⟩
  · refine ⟨insertedBook draws.bookId tenantId record title, title, titled, ?_, ?_, holds,
      fun other isOther => ?_⟩
    · rw [sameBooks, (Table.insert_eq_some.mp inserted).2]
      exact List.mem_append_right _ List.mem_cons_self
    · rw [missing]
    · obtain ⟨mem, tenant, key⟩ := findBook_eq_some.mp isOther
      rw [sameBooks] at mem
      rcases Table.mem_insert inserted mem with before | rfl
      · cases missing.symm.trans (findBook_eq_some.mpr ⟨before, tenant, key⟩)
      · rfl
  · obtain ⟨mem, tenant, key⟩ := findBook_eq_some.mp found
    let row := old.assign old.id (mergedValues record old).cut (cut 1000 title)
    have rowMem : row ∈ after.books.rows := by
      rw [sameBooks]
      have updated :=
        List.mem_map_of_mem (f := Book.updated old.id (mergedValues record old) title) mem
      rwa [updated_of_whole (whole.books old mem) titled] at updated
    refine ⟨row, title, titled, rowMem, ?_, ?_, fun other isOther => ?_⟩
    · rw [found]
    · simpa [row] using holds
    · obtain ⟨otherMem, otherTenant, otherKey⟩ := findBook_eq_some.mp isOther
      refine after.books.eq_of_clash (fun _ _ => Book.Clash.symm) otherMem rowMem (.inr ⟨?_, ?_⟩)
      · simpa [row] using otherTenant.trans tenant.symm
      · simpa [row] using otherKey.trans key.symm

/-- A call that is the first one of its key, for an author who is new. -/
structure Introduces (tenantId : Uuid) (draws : Draws) (c : Catalog) (calls : List AuthorCall)
    (i : Nat) (call : AuthorCall) : Prop where
  isCall : calls[i]? = some call
  new : ¬ Known tenantId c (call.olAuthorKey draws)
  first : ∀ j < i, ∀ earlier, calls[j]? = some earlier →
    earlier.olAuthorKey draws ≠ call.olAuthorKey draws

/-- An author who is new has the name that comes first with the key. -/
theorem authors_of_calls {calls : List AuthorCall} {result : PUnit} (whole : c.Whole)
    (keys : ∀ call ∈ calls, cut 50 (call.olAuthorKey draws) = call.olAuthorKey draws)
    (stored : calls.forM (putAuthorCall refuse tenantId bookId draws) c = .ok (result, after)) :
    ∀ a ∈ after.authors.rows, a ∈ c.authors.rows ∨
      ∃ i call text, Introduces tenantId draws c calls i call ∧
        a.olAuthorKey = call.olAuthorKey draws ∧ call.name = some text ∧ a.name = cut 500 text := by
  induction calls generalizing c with
  | nil =>
      obtain rfl : c = after := by simpa using Except.ok.inj stored
      exact fun a mem => .inl mem
  | cons call rest ih =>
      obtain ⟨_, middle, first, remaining⟩ := bind_run_eq_ok.mp stored
      have key := keys call List.mem_cons_self
      have grown := known_putAuthorCall whole first
      have middleWhole := putAuthorCall_keeps Catalog.Whole.send whole first
      intro a mem
      rcases ih middleWhole (fun later isLater => keys later (List.mem_cons_of_mem _ isLater))
        remaining a mem with before | ⟨i, later, text, introduces, sameKey, named, name⟩
      · obtain ⟨authorId, added, put, linked⟩ := bind_run_eq_ok.mp first
        rw [(putLink_grows linked).2.1] at before
        rcases putAuthor_cases put with ⟨_, _, _, rfl⟩ |
          ⟨missing, _, text, named, authors, inserted, rfl⟩
        · exact .inl before
        · rcases Table.mem_insert inserted before with old | rfl
          · exact .inl old
          · have introduces : Introduces tenantId draws c (call :: rest) 0 call :=
              ⟨rfl, findAuthor_eq_none_iff.mp missing, fun j below => absurd below j.not_lt_zero⟩
            exact .inr ⟨0, call, text, introduces, key, named, rfl⟩
      · refine .inr ⟨i + 1, later, text, ⟨introduces.isCall, fun known => ?_, fun j below => ?_⟩,
          sameKey, named, name⟩
        · exact introduces.new ((grown _).mpr (.inl known))
        · cases j with
          | zero =>
              rintro earlier isEarlier same
              obtain rfl := Option.some.inj isEarlier
              exact introduces.new ((grown _).mpr (.inr (by rw [key, same])))
          | succ j => exact introduces.first j (Nat.lt_of_succ_lt_succ below)

/-- Two calls that introduce the same author are one. -/
theorem Introduces.unique {calls : List AuthorCall} {i j : Nat} {call other : AuthorCall}
    (introduces : Introduces tenantId draws c calls i call)
    (also : Introduces tenantId draws c calls j other)
    (same : call.olAuthorKey draws = other.olAuthorKey draws) : call = other := by
  rcases Nat.lt_trichotomy i j with before | rfl | after
  · exact absurd same (also.first i before call introduces.isCall)
  · exact Option.some.inj (introduces.isCall.symm.trans also.isCall)
  · exact absurd same.symm (introduces.first j after other also.isCall)

theorem authors_putSubjects {subjects : List String} {result : PUnit}
    (stored : subjects.forM (putSubject refuse bookId) c = .ok (result, after)) :
    after.authors = c.authors := by
  refine forM_keeps Catalog.authors (fun subject c after result put => ?_) stored
  rcases putSubject_cases put with ⟨_, rfl⟩ | ⟨_, _, _, _, rfl⟩ <;> rfl

/-- The authors of the catalog in which a record was stored. -/
theorem authors_of_stored (whole : c.Whole)
    (keys : ∀ call ∈ record.authorCalls, cut 50 (call.olAuthorKey draws) = call.olAuthorKey draws)
    (stored : putRecord refuse tenantId record draws c = .ok ((), after)) :
    ∀ a ∈ after.authors.rows, a ∈ c.authors.rows ∨
      ∃ i call text, Introduces tenantId draws c record.authorCalls i call ∧
        a.olAuthorKey = call.olAuthorKey draws ∧ call.name = some text ∧ a.name = cut 500 text := by
  obtain ⟨bookId, middle, put, rest⟩ := bind_run_eq_ok.mp stored
  obtain ⟨_, linked, authors, subjects⟩ := bind_run_eq_ok.mp rest
  have same := authors_putBook put
  intro a mem
  rw [authors_putSubjects subjects] at mem
  rcases authors_of_calls (putBook_keeps Catalog.Whole.send whole put) keys authors a mem with
    old | ⟨i, call, text, introduces, found⟩
  · exact .inl (same ▸ old)
  · refine .inr ⟨i, call, text, ⟨introduces.isCall, ?_, introduces.first⟩, found⟩
    unfold Known
    rw [← same]
    exact introduces.new

end TenantLibrary.Ingestion
