import TenantLibrary.Ingestion.Growth
import TenantLibrary.Lib.Mirror
import TenantLibrary.ReadingLists.Service

/-!
What `_resolve_book` finds, as a function of the catalog.

`resolveIn` has no result where `_resolve_book` raises. A look-up by work key finds one
book at most, since the key is unique; a look-up by ISBN raises when several books of
the tenant share the ISBN (`scalarOne`). The database refuses either for a text with a NUL
(`lookedUp`).
-/

namespace TenantLibrary.ReadingLists

open TenantLibrary.Lib TenantLibrary.OpenLibrary TenantLibrary.Store TenantLibrary.Ingestion

/-- `scalar_one_or_none`, without a result where it raises. -/
def scalarOne {α : Type} : List α → Option (Option α)
  | [] => some none
  | [row] => some (some row)
  | _ => none

theorem scalarOne_isSome {α : Type} {rows : List α} :
    (scalarOne rows).isSome ↔ rows.length ≤ 1 := by
  match rows with
  | [] => simp [scalarOne]
  | [_] => simp [scalarOne]
  | _ :: _ :: _ => simp [scalarOne]

theorem scalarOne_eq_none {α : Type} {rows : List α} : scalarOne rows = some none ↔ rows = [] := by
  match rows with
  | [] => simp [scalarOne]
  | [_] => simp [scalarOne]
  | _ :: _ :: _ => simp [scalarOne]

theorem mem_of_scalarOne {α : Type} {rows : List α} {row : α}
    (found : scalarOne rows = some (some row)) : row ∈ rows := by
  match rows with
  | [] => cases found
  | [_] =>
      obtain rfl := Option.some.inj (Option.some.inj found)
      exact List.mem_cons_self
  | _ :: _ :: _ => cases found

/-- The one row that two columns select. -/
theorem selected_of_scalarOne {α β γ : Type} [DecidableEq β] [DecidableEq γ] {rows : List α}
    {f : α → β} {g : α → γ} {x : β} {y : γ} {row : α}
    (found : scalarOne (rows.filter fun a => f a = x && g a = y) = some (some row)) :
    row ∈ rows ∧ f row = x ∧ g row = y := by
  obtain ⟨mem, selected⟩ := List.mem_filter.mp (mem_of_scalarOne found)
  simp only [Bool.and_eq_true, decide_eq_true_eq] at selected
  exact ⟨mem, selected⟩

/-- A unique condition selects the row that is found first. -/
theorem scalarOne_filter {Row : Type} {Clash : Row → Row → Prop} (t : Table Row Clash)
    {condition : Row → Bool} (unique : ∀ a b, condition a → condition b → Clash a b) :
    scalarOne (t.rows.filter condition) = some (t.rows.find? condition) := by
  have atMostOne := t.filter_length_le_one unique
  rw [← List.head?_filter]
  match found : t.rows.filter condition with
  | [] => rfl
  | [_] => rfl
  | _ :: _ :: _ => simp [found] at atMostOne

/-- What a look-up by a text finds, without a result where the text is refused. -/
def lookedUp {α : Type} (text : String) (found : Option α) : Option α :=
  if noNul text then found else none

theorem lookedUp_eq_some {α : Type} {text : String} {found : Option α} {a : α} :
    lookedUp text found = some a ↔ noNul text ∧ found = some a := by
  simp [lookedUp]

/-- The books of a tenant with an ISBN. -/
def booksByIsbn (c : Catalog) (tenantId : Uuid) (isbn : String) : List Book :=
  c.books.rows.filter fun b => b.tenantId = tenantId && b.isbn = some isbn

/-- What `get_work` decides about a key the catalog does not have. -/
def verifiedBy (answers : ReferenceAnswers) (workKey isbn : Option String) : Option Resolution :=
  match answers.work with
  | .error (.openLibraryError _) =>
      some (none, some ⟨workKey, isbn, "Work not found on Open Library"⟩)
  | .error _ => none
  | .ok workDetail => do
      let olWorkKey ← workKey
      let title ← workDetail.title
      return (some ⟨olWorkKey, title, false⟩, none)

def resolveByKeyIn (c : Catalog) (tenantId : Uuid) (workKey isbn : Option String)
    (answers : ReferenceAnswers) : Option Resolution :=
  (if truthy workKey then
      lookedUp (workKey.getD "") (some (findBook tenantId (workKey.getD "") c))
    else some none) >>= fun
    | some book => some (inCatalog (workKey.getD "") book)
    | none => verifiedBy answers workKey isbn

/-- The work key `resolve_isbn` gives, or the one of the reference when it raises
`OpenLibraryError`. -/
def isbnKey (ref : BookReference) (answers : ReferenceAnswers) : Option (Option String) :=
  match answers.isbn with
  | .error (.openLibraryError _) => some ref.olWorkKey
  | .error _ => none
  | .ok workKey => some workKey

def resolveIn (c : Catalog) (tenantId : Uuid) (ref : BookReference) (answers : ReferenceAnswers) :
    Option Resolution :=
  match ref.isbn.filter (· ≠ "") with
  | none => resolveByKeyIn c tenantId ref.olWorkKey ref.isbn answers
  | some isbn =>
      lookedUp isbn (scalarOne (booksByIsbn c tenantId isbn)) >>= fun
        | some book => some (inCatalog book.olWorkKey book)
        | none =>
            if truthy ref.olWorkKey then
              resolveByKeyIn c tenantId ref.olWorkKey ref.isbn answers
            else
              isbnKey ref answers >>= fun workKey =>
                if truthy workKey then resolveByKeyIn c tenantId workKey ref.isbn answers
                else some (none, some ⟨none, ref.isbn, "ISBN not found on Open Library"⟩)

/-- A reference is resolved or unresolved, and one found in the catalog is there under its
key. -/
def Settled (c : Catalog) (tenantId : Uuid) (resolution : Resolution) : Prop :=
  (resolution.1 = none ∧ resolution.2.isSome) ∨
    ∃ book, resolution = (some book, none) ∧
      (book.foundInCatalog → ∃ b, findBook tenantId book.olWorkKey c = some b)

section Settled

variable {c : Catalog} {tenantId : Uuid} {ref : BookReference} {answers : ReferenceAnswers}
  {resolution : Resolution}

theorem settled_inCatalog {olWorkKey : String} {book : Book}
    (found : findBook tenantId olWorkKey c = some book) :
    Settled c tenantId (inCatalog olWorkKey book) :=
  .inr ⟨_, rfl, fun _ => ⟨book, found⟩⟩

theorem settled_verifiedBy {workKey isbn : Option String}
    (resolved : verifiedBy answers workKey isbn = some resolution) :
    Settled c tenantId resolution := by
  unfold verifiedBy at resolved
  split at resolved
  · obtain rfl := Option.some.inj resolved
    exact .inl ⟨rfl, rfl⟩
  · cases resolved
  · obtain ⟨olWorkKey, _, resolved⟩ := Option.bind_eq_some_iff.mp resolved
    obtain ⟨title, _, resolved⟩ := Option.bind_eq_some_iff.mp resolved
    obtain rfl := Option.some.inj resolved
    exact .inr ⟨_, rfl, nofun⟩

/-- A work key is found in the catalog, or Open Library is asked. -/
theorem resolveByKeyIn_cases {workKey isbn : Option String}
    (resolved : resolveByKeyIn c tenantId workKey isbn answers = some resolution) :
    (∃ book, truthy workKey ∧ findBook tenantId (workKey.getD "") c = some book ∧
      resolution = inCatalog (workKey.getD "") book) ∨
    (truthy workKey → noNul (workKey.getD "") ∧ findBook tenantId (workKey.getD "") c = none) ∧
      verifiedBy answers workKey isbn = some resolution := by
  obtain ⟨found, looked, resolved⟩ := Option.bind_eq_some_iff.mp resolved
  split at looked
  case isTrue keyed =>
    obtain ⟨text, is⟩ := lookedUp_eq_some.mp looked
    obtain rfl := Option.some.inj is
    cases found : findBook tenantId (workKey.getD "") c with
    | some book =>
        rw [found] at resolved
        exact .inl ⟨book, keyed, rfl, (Option.some.inj resolved).symm⟩
    | none =>
        rw [found] at resolved
        exact .inr ⟨fun _ => ⟨text, rfl⟩, resolved⟩
  case isFalse unkeyed =>
    obtain rfl := Option.some.inj looked
    exact .inr ⟨fun keyed => absurd keyed unkeyed, resolved⟩

theorem settled_resolveByKeyIn {workKey isbn : Option String}
    (resolved : resolveByKeyIn c tenantId workKey isbn answers = some resolution) :
    Settled c tenantId resolution := by
  rcases resolveByKeyIn_cases resolved with ⟨book, _, found, rfl⟩ | ⟨_, verified⟩
  · exact settled_inCatalog found
  · exact settled_verifiedBy verified

theorem settled_resolveIn (resolved : resolveIn c tenantId ref answers = some resolution) :
    Settled c tenantId resolution := by
  unfold resolveIn at resolved
  split at resolved
  case h_1 => exact settled_resolveByKeyIn resolved
  case h_2 isbn _ =>
    obtain ⟨found, looked, resolved⟩ := Option.bind_eq_some_iff.mp resolved
    cases found with
    | some book =>
        obtain rfl := Option.some.inj resolved
        obtain ⟨mem, tenant, _⟩ := selected_of_scalarOne (lookedUp_eq_some.mp looked).2
        exact settled_inCatalog (findBook_eq_some.mpr ⟨mem, tenant, rfl⟩)
    | none =>
        dsimp only at resolved
        split at resolved
        · exact settled_resolveByKeyIn resolved
        · obtain ⟨workKey, _, resolved⟩ := Option.bind_eq_some_iff.mp resolved
          split at resolved
          · exact settled_resolveByKeyIn resolved
          · obtain rfl := Option.some.inj resolved
            exact .inl ⟨rfl, rfl⟩

/-- The key a reference is looked up by when no book of the catalog has its ISBN: its own, or
the one that Open Library gives for the ISBN. -/
def keyTried (ref : BookReference) (answers : ReferenceAnswers) : Option (Option String) :=
  if truthy ref.isbn && !truthy ref.olWorkKey then isbnKey ref answers else some ref.olWorkKey

/-- The catalog has no book with the ISBN of the reference. -/
def IsbnAbsent (c : Catalog) (tenantId : Uuid) (ref : BookReference) : Prop :=
  ∀ isbn, ref.isbn = some isbn → isbn ≠ "" → booksByIsbn c tenantId isbn = []

theorem filter_isbn_eq_some {isbn : String} :
    ref.isbn.filter (· ≠ "") = some isbn ↔ ref.isbn = some isbn ∧ isbn ≠ "" := by
  simp [Option.filter_eq_some_iff]

theorem truthy_isbn : truthy ref.isbn = (ref.isbn.filter (· ≠ "")).isSome := by
  cases ref.isbn with
  | none => rfl
  | some isbn => by_cases empty : isbn = "" <;> simp [truthy, empty]

section Keys

variable {P : String → Prop}

theorem key_resolveByKeyIn {workKey isbn : Option String}
    (books : ∀ b ∈ c.books.rows, P b.olWorkKey)
    (tried : ∀ workDetail, answers.work = .ok workDetail → ∀ key ∈ workKey, P key)
    (resolved : resolveByKeyIn c tenantId workKey isbn answers = some resolution) :
    ∀ book ∈ resolution.1, P book.olWorkKey := by
  intro book isBook
  rcases resolveByKeyIn_cases resolved with ⟨b, _, found, rfl⟩ | ⟨_, verified⟩
  · obtain ⟨mem, _, key⟩ := findBook_eq_some.mp found
    obtain rfl := Option.some.inj isBook
    exact key ▸ books b mem
  · unfold verifiedBy at verified
    split at verified
    · obtain rfl := Option.some.inj verified
      cases isBook
    · cases verified
    case h_3 workDetail answered =>
      obtain ⟨olWorkKey, known, verified⟩ := Option.bind_eq_some_iff.mp verified
      obtain ⟨title, _, verified⟩ := Option.bind_eq_some_iff.mp verified
      obtain rfl := Option.some.inj verified
      obtain rfl := Option.some.inj isBook
      exact tried workDetail answered olWorkKey known

/-- The key of a resolved reference is one of the catalog, or the one tried when Open Library
has the work. -/
theorem key_resolveIn (books : ∀ b ∈ c.books.rows, P b.olWorkKey)
    (tried : IsbnAbsent c tenantId ref → ∀ workKey, keyTried ref answers = some workKey →
      ∀ workDetail, answers.work = .ok workDetail → ∀ key ∈ workKey, P key)
    (resolved : resolveIn c tenantId ref answers = some resolution) :
    ∀ book ∈ resolution.1, P book.olWorkKey := by
  unfold resolveIn at resolved
  split at resolved
  case h_1 given =>
    have absent : IsbnAbsent c tenantId ref := by
      intro isbn found nonempty
      rw [filter_isbn_eq_some.mpr ⟨found, nonempty⟩] at given
      cases given
    refine key_resolveByKeyIn books (tried absent _ ?_) resolved
    rw [keyTried, truthy_isbn, given]
    rfl
  case h_2 isbn given =>
    obtain ⟨looked, found, resolved⟩ := Option.bind_eq_some_iff.mp resolved
    have found := (lookedUp_eq_some.mp found).2
    cases looked with
    | some b =>
        obtain rfl := Option.some.inj resolved
        intro book isBook
        obtain rfl := Option.some.inj isBook
        exact books b (selected_of_scalarOne found).1
    | none =>
        have absent : IsbnAbsent c tenantId ref := by
          intro other is _
          obtain rfl := Option.some.inj (is.symm.trans (filter_isbn_eq_some.mp given).1)
          exact scalarOne_eq_none.mp found
        have tried := tried absent
        have named : truthy ref.isbn := by rw [truthy_isbn, given]; rfl
        dsimp only at resolved
        split at resolved
        case isTrue keyed =>
          refine key_resolveByKeyIn books (tried _ ?_) resolved
          rw [keyTried, if_neg (by simp [keyed])]
        case isFalse unkeyed =>
          obtain ⟨workKey, answered, resolved⟩ := Option.bind_eq_some_iff.mp resolved
          split at resolved
          · refine key_resolveByKeyIn books (tried workKey ?_) resolved
            rw [keyTried, if_pos (by simp [named, unkeyed])]
            exact answered
          · obtain rfl := Option.some.inj resolved
            exact nofun

end Keys

/-- A reference whose ISBN the catalog has is resolved. -/
theorem absent_of_unresolved (resolved : resolveIn c tenantId ref answers = some resolution)
    (unresolved : resolution.1 = none) : IsbnAbsent c tenantId ref := by
  intro isbn is nonempty
  rw [resolveIn, filter_isbn_eq_some.mpr ⟨is, nonempty⟩] at resolved
  obtain ⟨looked, found, resolved⟩ := Option.bind_eq_some_iff.mp resolved
  cases looked with
  | some book =>
      obtain rfl := Option.some.inj resolved
      cases unresolved
  | none => exact scalarOne_eq_none.mp (lookedUp_eq_some.mp found).2

end Settled

/-! ### The service computes it -/

/-- The writes of a submission meet no objection beside the columns' own. -/
abbrev database : Write → Database → Except DbError Database := Write.send Refusal.never

variable {tenantId : Uuid} {ref : BookReference} {answers : ReferenceAnswers}

theorem reads_scalarOneOrNone {α : Type} (rows : List α) :
    Reads database (scalarOneOrNone rows) fun _ => scalarOne rows := by
  match rows with
  | [] => exact Reads.pure none
  | [row] => exact Reads.pure (some row)
  | _ :: _ :: _ => exact Reads.throw _

theorem reads_selectBinding {α : Type} (text : String) (query : Database → α) :
    Reads database (selectBinding [.text text] query : IngestM α) fun db =>
      lookedUp text (some (query db)) := by
  have answered (rows : α) : Reads database
      (if [Parameter.text text].all Parameter.fits then pure rows
        else throw (.database refusedParameter) : IngestM α) fun _ =>
        lookedUp text (some rows) := by
    unfold lookedUp
    cases fits : noNul text with
    | true =>
        rw [if_pos (by simpa [Parameter.fits] using fits)]
        exact Reads.pure rows
    | false =>
        rw [if_neg (by simpa [Parameter.fits] using fits)]
        exact Reads.throw _
  exact (Reads.select query).bind answered

theorem lookedUp_bind {α β : Type} (text : String) (found : Option α) (next : α → Option β) :
    (lookedUp text found >>= next) = lookedUp text (found >>= next) := by
  unfold lookedUp
  split <;> rfl

theorem reads_findByIsbn (isbn : String) :
    Reads database (findByIsbn tenantId isbn) fun db =>
      lookedUp isbn (scalarOne (booksByIsbn db.catalog tenantId isbn)) :=
  ((reads_selectBinding isbn _).bind reads_scalarOneOrNone).congr fun _ => lookedUp_bind ..

theorem reads_findByWorkKey (olWorkKey : String) :
    Reads database (findByWorkKey tenantId olWorkKey) fun db =>
      lookedUp olWorkKey (some (findBook tenantId olWorkKey db.catalog)) := by
  apply ((reads_selectBinding olWorkKey _).bind reads_scalarOneOrNone).congr
  intro db
  have one := scalarOne_filter db.catalog.books <|
    @Table.clash_of_columns _ _ _ _ _ _ Book.tenantId Book.olWorkKey tenantId olWorkKey
      fun _ _ tenant key => .inr ⟨tenant, key⟩
  exact (lookedUp_bind ..).trans (congrArg (lookedUp olWorkKey) one)

theorem reads_liftAnswer {α : Type} (answer : Except Failure α) :
    Reads database (liftAnswer answer) fun _ => answer.toOption := by
  cases answer with
  | ok a => exact Reads.pure a
  | error failure => exact Reads.throw _

/-- The end of `_resolve_book`, once the catalog was asked. -/
theorem reads_verified (workKey isbn : Option String) (found : Option Book) :
    Reads database
      (match found with
        | some book => return inCatalog (workKey.getD "") book
        | none =>
            match answers.work with
            | .error (.openLibraryError _) =>
                return (none, some ⟨workKey, isbn, "Work not found on Open Library"⟩)
            | .error failure => throw (.raised failure)
            | .ok workDetail => do
                let olWorkKey ← liftAnswer ((Failure.other "validation error").onNone workKey)
                let title ← liftAnswer ((Failure.other "validation error").onNone workDetail.title)
                return (some ⟨olWorkKey, title, false⟩, none) : IngestM Resolution)
      fun _ => match found with
        | some book => some (inCatalog (workKey.getD "") book)
        | none => verifiedBy answers workKey isbn := by
  cases found with
  | some book => exact Reads.pure _
  | none =>
      dsimp only
      unfold verifiedBy
      split
      · exact Reads.pure _
      · exact Reads.throw _
      · refine ((reads_liftAnswer _).bind fun olWorkKey =>
          (reads_liftAnswer _).bind fun title => Reads.pure _).congr fun _ => ?_
        cases workKey with
        | none => rfl
        | some olWorkKey => cases ‹WorkDetail›.title <;> rfl

theorem reads_resolveByKey (workKey isbn : Option String) :
    Reads database (resolveByKey tenantId workKey isbn answers) fun db =>
      resolveByKeyIn db.catalog tenantId workKey isbn answers := by
  by_cases given : truthy workKey
  · rw [resolveByKey, if_pos given]
    apply ((reads_findByWorkKey _).bind (reads_verified workKey isbn)).congr
    intro db
    rw [resolveByKeyIn, if_pos given]
  · rw [resolveByKey, if_neg given]
    apply ((Reads.pure none).bind (reads_verified workKey isbn)).congr
    intro db
    rw [resolveByKeyIn, if_neg given]

/-- `_resolve_book` computes `resolveIn`. -/
theorem reads_resolveBook :
    Reads database (resolveBook tenantId ref answers) fun db =>
      resolveIn db.catalog tenantId ref answers := by
  have byIsbnKey (workKey : Option String) : Reads database
      (if truthy workKey then resolveByKey tenantId workKey ref.isbn answers
        else return (none, some ⟨none, ref.isbn, "ISBN not found on Open Library"⟩))
      fun db => if truthy workKey then resolveByKeyIn db.catalog tenantId workKey ref.isbn answers
        else some (none, some ⟨none, ref.isbn, "ISBN not found on Open Library"⟩) := by
    split
    · exact reads_resolveByKey _ _
    · exact Reads.pure _
  cases given : ref.isbn.filter (· ≠ "") with
  | none =>
      simp only [resolveBook, resolveIn, given]
      exact reads_resolveByKey _ _
  | some isbn =>
      simp only [resolveBook, resolveIn, given]
      apply (reads_findByIsbn isbn).bind
      intro found
      cases found with
      | some book => exact Reads.pure _
      | none =>
          dsimp only
          by_cases keyed : truthy ref.olWorkKey
          · simp only [if_pos keyed]
            exact reads_resolveByKey _ _
          · simp only [if_neg keyed, isbnKey]
            cases answers.isbn with
            | ok workKey => exact (Reads.pure workKey).bind byIsbnKey
            | error failure =>
                cases failure with
                | openLibraryError message => exact (Reads.pure ref.olWorkKey).bind byIsbnKey
                | attributeError => exact (Reads.throw _).bind byIsbnKey
                | typeError => exact (Reads.throw _).bind byIsbnKey
                | other message => exact (Reads.throw _).bind byIsbnKey

end TenantLibrary.ReadingLists
