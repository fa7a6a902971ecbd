import Mathlib.Algebra.Order.BigOperators.Group.List
import TenantLibrary.Api.Histories
import TenantLibrary.ReadingLists.Cascade
import TenantLibrary.ReadingLists.LastWrite

/-!
Reading a submission back.

The response to a submission and the rows it stores are made by different code. The
response masks the email just sent and reports an unresolved reference under the key that
was tried last; the row keeps the mask of the first submission and the key that was
submitted, and its columns cut the spaces that are too many. `reads_back_iff` says, for a
submission that succeeds after any history, when `get_reading_list` shows what the response
said.
-/

namespace TenantLibrary.Api

open TenantLibrary.Lib TenantLibrary.OpenLibrary TenantLibrary.Store TenantLibrary.Ingestion
  TenantLibrary.ReadingLists

/-! ### Agreement -/

/-- A list shows what a response said: the masks, and the same books, as multisets. -/
structure Agrees (response : ReadingListResponse) (shown : ReadingListOut) : Prop where
  name : shown.patronNameMasked = response.patronNameMasked
  email : shown.emailMasked = response.emailMasked
  resolved : ((shown.items.filter (·.resolved)).map (·.olWorkKey)).Perm
    (response.resolvedBooks.map fun book => some book.olWorkKey)
  unresolved : ((shown.items.filter (!·.resolved)).map fun item => (item.olWorkKey, item.isbn)).Perm
    (response.unresolvedBooks.map fun book => (book.olWorkKey, book.isbn))

/-- The list of a response, read right afterwards, agrees with it. -/
def ReadsBack (env : Environment) (s : Service) (tenantId : Uuid) (response : ReadingListResponse) :
    Prop :=
  ∃ shown, (serve env s ⟨tenantId, .getReadingList response.readingListId⟩).1 =
    .readingList shown ∧ Agrees response shown

/-- The work key Open Library gives for the ISBN of a reference. -/
def answeredKey (answers : ReferenceAnswers) : Option String :=
  match answers.isbn with
  | .ok workKey => givenText workKey
  | .error _ => none

/-- If the reference is not resolved, it is stored under the key the response reports. -/
def StoredAsAnswered (c : Catalog) (tenantId : Uuid) (ref : BookReference)
    (answers : ReferenceAnswers) : Prop :=
  (givenText ref.olWorkKey).isSome ∨ (∃ b, HasIsbn c tenantId ref b) ∨
    match answeredKey answers with
    | none => ref.olWorkKey = none
    | some workKey => (∃ b, HasKey c tenantId workKey b) ∨ ∃ workDetail, answers.work = .ok workDetail

/-- The key that is looked up when no book has the ISBN. -/
def keyTaken (ref : BookReference) (answers : ReferenceAnswers) : Option String :=
  (givenText ref.olWorkKey).or (answeredKey answers)

/-- The catalog or Open Library has the reference. -/
def Resolvable (c : Catalog) (tenantId : Uuid) (ref : BookReference)
    (answers : ReferenceAnswers) : Prop :=
  (∃ b, HasIsbn c tenantId ref b) ∨ ∃ workKey, keyTaken ref answers = some workKey ∧
    ((∃ b, HasKey c tenantId workKey b) ∨ ∃ workDetail, answers.work = .ok workDetail)

/-- The columns keep what the response reports of the reference: the key that is looked up when
no book has the ISBN, and the ISBN if it is not resolved. -/
structure KeptAsAnswered (c : Catalog) (tenantId : Uuid) (ref : BookReference)
    (answers : ReferenceAnswers) : Prop where
  key : (∀ b, ¬ HasIsbn c tenantId ref b) → ∀ workKey, keyTaken ref answers = some workKey →
    cut 50 workKey = workKey
  isbn : ¬ Resolvable c tenantId ref answers → ref.isbn.map (cut 20) = ref.isbn

/-- The condition on the submission and the state before it: a list that is there already
has the mask of this email, a new one keeps it whole, and each reference is stored and kept
as it is answered. -/
structure Readable (hashing : Hashing) (db : Database) (tenantId : Uuid) (submission : Submission)
    (answers : Nat → ReferenceAnswers) : Prop where
  email : ∀ list, findList tenantId (hashPii hashing submission.email) db = some list →
    maskEmail submission.email = .ok list.emailMasked
  created : findList tenantId (hashPii hashing submission.email) db = none →
    ∀ masked, maskEmail submission.email = .ok masked → cut 255 masked = masked
  references : ∀ ref ∈ submission.books.zipIdx,
    StoredAsAnswered db.catalog tenantId ref.1 (answers ref.2) ∧
      KeptAsAnswered db.catalog tenantId ref.1 (answers ref.2)

/-! ### How a reference is answered -/

section Reference

variable {c : Catalog} {tenantId : Uuid} {ref : BookReference} {answers : ReferenceAnswers}
  {resolution : Resolution}

/-- What `_resolve_book` decides, by what was submitted and what is known. -/
inductive AnsweredBy (c : Catalog) (tenantId : Uuid) (ref : BookReference)
    (answers : ReferenceAnswers) : Resolution → Prop where
  /-- one book of the catalog has the ISBN -/
  | byIsbn (b : Book) (has : HasIsbn c tenantId ref b)
      (only : ∀ other, HasIsbn c tenantId ref other → other = b) :
      AnsweredBy c tenantId ref answers (inCatalog b.olWorkKey b)
  /-- the catalog or Open Library has the key -/
  | byKey (missed : ∀ b, ¬ HasIsbn c tenantId ref b) (book : ResolvedBook)
      (taken : keyTaken ref answers = some book.olWorkKey)
      (known : (∃ b, HasKey c tenantId book.olWorkKey b) ∨
        ∃ workDetail, answers.work = .ok workDetail) :
      AnsweredBy c tenantId ref answers (some book, none)
  /-- neither has the key -/
  | lost (missed : ∀ b, ¬ HasIsbn c tenantId ref b) (workKey : String)
      (taken : keyTaken ref answers = some workKey) (absent : ∀ b, ¬ HasKey c tenantId workKey b)
      (gone : ∀ workDetail, answers.work ≠ .ok workDetail) (reason : String) :
      AnsweredBy c tenantId ref answers (none, some ⟨some workKey, ref.isbn, reason⟩)
  /-- there is no key -/
  | unknown (missed : ∀ b, ¬ HasIsbn c tenantId ref b) (untaken : keyTaken ref answers = none)
      (reason : String) : AnsweredBy c tenantId ref answers (none, some ⟨none, ref.isbn, reason⟩)

theorem answered_of_key {workKey : String} (missed : ∀ b, ¬ HasIsbn c tenantId ref b)
    (taken : keyTaken ref answers = some workKey) (keyed : truthy (some workKey))
    (resolved : resolveByKeyIn c tenantId (some workKey) ref.isbn answers = some resolution) :
    AnsweredBy c tenantId ref answers resolution := by
  rcases resolveByKeyIn_cases resolved with ⟨b, _, found, rfl⟩ | ⟨absent, verified⟩
  · exact .byKey missed ⟨workKey, b.title, true⟩ taken (.inl ⟨b, findBook_eq_some.mp found⟩)
  · have absent := findBook_isNone.mp (absent keyed).2
    unfold verifiedBy at verified
    split at verified
    case h_1 message failed =>
      obtain rfl := Option.some.inj verified
      refine .lost missed workKey taken absent (fun workDetail answered => ?_) _
      cases failed.symm.trans answered
    case h_2 => cases verified
    case h_3 workDetail answered =>
      obtain ⟨olWorkKey, same, verified⟩ := Option.bind_eq_some_iff.mp verified
      obtain ⟨title, _, verified⟩ := Option.bind_eq_some_iff.mp verified
      obtain rfl := Option.some.inj verified
      obtain rfl := Option.some.inj same
      exact .byKey missed ⟨workKey, title, false⟩ taken (.inr ⟨workDetail, answered⟩)

/-- A submitted key is the one that is looked up. -/
theorem answered_of_submitted (missed : ∀ b, ¬ HasIsbn c tenantId ref b)
    (keyed : truthy ref.olWorkKey)
    (resolved : resolveByKeyIn c tenantId ref.olWorkKey ref.isbn answers = some resolution) :
    AnsweredBy c tenantId ref answers resolution := by
  obtain ⟨workKey, same, isGiven⟩ := givenText_of_truthy keyed
  rw [same] at keyed resolved
  refine answered_of_key missed ?_ keyed resolved
  rw [keyTaken, isGiven]
  rfl

/-- A look-up by ISBN that finds nothing: no book has the ISBN. -/
theorem missed_of_scalarOne {isbn : String} (found : givenText ref.isbn = some isbn)
    (looked : scalarOne (booksByIsbn c tenantId isbn) = some none) (b : Book) :
    ¬ HasIsbn c tenantId ref b := by
  rintro ⟨mem, tenant, other, named, held⟩
  obtain rfl := Option.some.inj (found.symm.trans named)
  have listed : b ∈ booksByIsbn c tenantId isbn := by
    simp [booksByIsbn, mem, tenant, held]
  rw [scalarOne_eq_none.mp looked] at listed
  cases listed

/-- A look-up by ISBN that finds a book: it is the only one that has the ISBN. -/
theorem only_of_scalarOne {isbn : String} {book : Book} (found : givenText ref.isbn = some isbn)
    (looked : scalarOne (booksByIsbn c tenantId isbn) = some (some book)) (other : Book)
    (has : HasIsbn c tenantId ref other) : other = book := by
  obtain ⟨mem, tenant, named, given, held⟩ := has
  obtain rfl := Option.some.inj (found.symm.trans given)
  have listed : other ∈ booksByIsbn c tenantId isbn := by
    simp [booksByIsbn, mem, tenant, held]
  rcases books : booksByIsbn c tenantId isbn with _ | ⟨row, _ | ⟨next, rest⟩⟩
  · rw [books] at listed
    cases listed
  · rw [books] at looked listed
    obtain rfl := Option.some.inj (Option.some.inj looked)
    exact List.mem_singleton.mp listed
  · rw [books] at looked
    cases looked

theorem answered_of_resolveIn (resolved : resolveIn c tenantId ref answers = some resolution) :
    AnsweredBy c tenantId ref answers resolution := by
  unfold resolveIn at resolved
  split at resolved
  case h_1 absent =>
    refine answered_of_submitted (fun b has => ?_) (keyed_of_filter_isbn absent) resolved
    obtain ⟨_, _, isbn, named, _⟩ := has
    cases absent.symm.trans named
  case h_2 isbn named =>
    obtain ⟨found, looked, resolved⟩ := Option.bind_eq_some_iff.mp resolved
    have looked := (lookedUp_eq_some.mp looked).2
    cases found with
    | some book =>
        obtain rfl := Option.some.inj resolved
        obtain ⟨mem, tenant, sameIsbn⟩ := selected_of_scalarOne looked
        exact .byIsbn book ⟨mem, tenant, isbn, named, sameIsbn⟩ (only_of_scalarOne named looked)
    | none =>
        have missed := missed_of_scalarOne named looked
        dsimp only at resolved
        split at resolved
        case isTrue keyed => exact answered_of_submitted missed keyed resolved
        case isFalse keyless =>
          have unkeyed : givenText ref.olWorkKey = none :=
            givenText_eq_none.mpr (by simpa using keyless)
          obtain ⟨workKey, answered, resolved⟩ := Option.bind_eq_some_iff.mp resolved
          -- without a submitted key, the key that is tried is the ISBN's
          have taken : keyTaken ref answers = givenText workKey := by
            rw [keyTaken, unkeyed, Option.none_or]
            unfold isbnKey at answered
            split at answered
            case h_1 failed =>
              obtain rfl := Option.some.inj answered
              rw [answeredKey, failed, unkeyed]
            case h_2 => cases answered
            case h_3 returned =>
              obtain rfl := Option.some.inj answered
              rw [answeredKey, returned]
          split at resolved
          case isTrue keyed =>
            obtain ⟨value, rfl, isGiven⟩ := givenText_of_truthy keyed
            exact answered_of_key missed (taken.trans isGiven) keyed resolved
          case isFalse keyless =>
            obtain rfl := Option.some.inj resolved
            exact .unknown missed (taken.trans (givenText_eq_none.mpr (by simpa using keyless))) _

/-! ### What is shown of a reference -/

def textLength (text : Option String) : Nat := text.elim 0 (·.toList.length)

/-- How much a key says: nothing was sent, an empty text, a key. -/
def keyRank : Option String → Nat
  | none => 1
  | some workKey => if workKey = "" then 0 else 2

/-- How much is shown of a key and an ISBN. -/
def shownRank (shown : Option String × Option String) : Nat :=
  keyRank shown.1 + textLength shown.1 + textLength shown.2

theorem textLength_cut_le (n : Nat) (text : Option String) :
    textLength (text.map (cut n)) ≤ textLength text := by
  cases text with
  | none => exact le_rfl
  | some text => exact length_cut_le n text

theorem cut_of_textLength {n : Nat} {text : Option String}
    (same : textLength (text.map (cut n)) = textLength text) : text.map (cut n) = text := by
  cases text with
  | none => rfl
  | some text => exact congrArg some (cut_of_length same)

theorem keyRank_cut (workKey : Option String) :
    keyRank (workKey.map (cut 50)) = keyRank workKey := by
  cases workKey with
  | none => rfl
  | some workKey => simp [keyRank, cut_eq_empty]

theorem unkeyed_cases {workKey : Option String} (unkeyed : givenText workKey = none) :
    workKey = none ∨ workKey = some "" := by
  cases workKey with
  | none => exact .inl rfl
  | some value =>
      refine .inr (congrArg some ?_)
      by_contra nonempty
      rw [givenText_eq_some.mpr ⟨rfl, nonempty⟩] at unkeyed
      cases unkeyed

/-- A key that is not given shows nothing. -/
theorem rank_of_unkeyed {workKey : Option String} (unkeyed : givenText workKey = none) :
    keyRank workKey ≤ 1 ∧ textLength (workKey.map (cut 50)) = 0 := by
  rcases unkeyed_cases unkeyed with rfl | rfl
  · exact ⟨le_rfl, rfl⟩
  · exact ⟨Nat.zero_le 1, congrArg (·.toList.length) cut_empty⟩

theorem ne_empty_of_taken {workKey : String} (taken : keyTaken ref answers = some workKey) :
    workKey ≠ "" := by
  rcases Option.or_eq_some_iff.mp taken with given | ⟨_, given⟩
  · exact (givenText_eq_some.mp given).2
  · unfold answeredKey at given
    split at given
    · exact (givenText_eq_some.mp given).2
    · cases given

/-- What the item of a reference shows of it. -/
def itemShows (ref : BookReference) : Option String × Option String :=
  (ref.olWorkKey.map (cut 50), ref.isbn.map (cut 20))

/-- A list never shows more of an unresolved reference than the response. -/
theorem AnsweredBy.rank {reason : UnresolvedBook}
    (answered : AnsweredBy c tenantId ref answers (none, some reason)) :
    shownRank (itemShows ref) ≤ shownRank (reason.olWorkKey, reason.isbn) ∧
      (shownRank (itemShows ref) = shownRank (reason.olWorkKey, reason.isbn) →
        itemShows ref = (reason.olWorkKey, reason.isbn)) := by
  have isbn := textLength_cut_le 20 ref.isbn
  have own := textLength_cut_le 50 ref.olWorkKey
  have whole (same : shownRank (itemShows ref) = shownRank (ref.olWorkKey, ref.isbn)) :
      itemShows ref = (ref.olWorkKey, ref.isbn) := by
    simp only [shownRank, itemShows, keyRank_cut] at same
    exact Prod.ext (cut_of_textLength (by omega)) (cut_of_textLength (by omega))
  have fewer : shownRank (itemShows ref) ≤ shownRank (ref.olWorkKey, ref.isbn) := by
    simp only [shownRank, itemShows, keyRank_cut]
    omega
  cases answered with
  | lost missed workKey taken _ _ reason =>
      cases given : givenText ref.olWorkKey with
      | some value =>
          -- the key reported is the one submitted
          obtain rfl : value = workKey := by
            rw [keyTaken, given] at taken
            exact Option.some.inj taken
          rw [(givenText_eq_some.mp given).1] at whole fewer
          exact ⟨fewer, whole⟩
      | none =>
          have rank : keyRank (some workKey) = 2 := if_neg (ne_empty_of_taken taken)
          obtain ⟨low, nothing⟩ := rank_of_unkeyed given
          have less : shownRank (itemShows ref) < shownRank (some workKey, ref.isbn) := by
            simp only [shownRank, itemShows, keyRank_cut, rank]
            omega
          exact ⟨less.le, fun same => absurd same less.ne⟩
  | unknown missed untaken reason =>
      have unkeyed := (Option.or_eq_none_iff.mp untaken).1
      rcases unkeyed_cases unkeyed with none | empty
      · rw [none] at whole fewer
        exact ⟨fewer, whole⟩
      · have rank : keyRank ref.olWorkKey = 0 := empty ▸ rfl
        have other : keyRank none = 1 := rfl
        obtain ⟨_, nothing⟩ := rank_of_unkeyed unkeyed
        have less : shownRank (itemShows ref) < shownRank (none, ref.isbn) := by
          simp only [shownRank, itemShows, keyRank_cut, rank, other]
          omega
        exact ⟨less.le, fun same => absurd same less.ne⟩

/-- The condition on a reference says that the list shows it as the response does. -/
theorem AnsweredBy.shown_iff (whole : c.Whole)
    (answered : AnsweredBy c tenantId ref answers resolution) :
    StoredAsAnswered c tenantId ref answers ∧ KeptAsAnswered c tenantId ref answers ↔
      (∀ book ∈ resolution.1, cut 50 book.olWorkKey = book.olWorkKey) ∧
        ∀ reason, resolution = (none, some reason) →
          itemShows ref = (reason.olWorkKey, reason.isbn) := by
  cases answered with
  | byIsbn b has only =>
      constructor
      · intro _
        refine ⟨fun book isBook => ?_, nofun⟩
        obtain rfl := Option.some.inj isBook
        exact (whole.books b has.1).olWorkKey
      · intro _
        exact ⟨.inr (.inl ⟨b, has⟩), fun missed => absurd has (missed b),
          fun unresolved => absurd (.inl ⟨b, has⟩) unresolved⟩
  | byKey missed book taken known =>
      have resolvable : Resolvable c tenantId ref answers := .inr ⟨_, taken, known⟩
      constructor
      · rintro ⟨_, kept⟩
        refine ⟨fun other isBook => ?_, nofun⟩
        obtain rfl := Option.some.inj isBook
        exact kept.key missed _ taken
      · rintro ⟨kept, _⟩
        refine ⟨?_, fun _ workKey taken' => ?_, fun unresolved => absurd resolvable unresolved⟩
        · rcases Option.or_eq_some_iff.mp taken with given | ⟨_, given⟩
          · exact .inl (given ▸ rfl)
          · refine .inr (.inr ?_)
            rw [given]
            exact known
        · obtain rfl := Option.some.inj (taken.symm.trans taken')
          exact kept book rfl
  | lost missed workKey taken absent gone reason =>
      have unresolved : ¬ Resolvable c tenantId ref answers := by
        rintro (⟨b, has⟩ | ⟨other, taken', known⟩)
        · exact missed b has
        · obtain rfl := Option.some.inj (taken.symm.trans taken')
          rcases known with ⟨b, has⟩ | ⟨workDetail, answered⟩
          · exact absent b has
          · exact gone workDetail answered
      constructor
      · rintro ⟨stored, kept⟩
        refine ⟨nofun, fun other is => ?_⟩
        obtain rfl := Option.some.inj (congrArg Prod.snd is)
        have given : givenText ref.olWorkKey = some workKey := by
          rcases Option.or_eq_some_iff.mp taken with given | ⟨unkeyed, answered⟩
          · exact given
          · rcases stored with keyed | ⟨b, has⟩ | known
            · rw [unkeyed] at keyed
              cases keyed
            · exact absurd has (missed b)
            · rw [answered] at known
              exact absurd (.inr ⟨workKey, taken, known⟩) unresolved
        refine Prod.ext ?_ (kept.isbn unresolved)
        change ref.olWorkKey.map (cut 50) = some workKey
        rw [(givenText_eq_some.mp given).1]
        exact congrArg some (kept.key missed workKey taken)
      · rintro ⟨_, shows⟩
        obtain ⟨shownKey, shownIsbn⟩ := Prod.mk.inj (shows _ rfl)
        obtain ⟨value, submitted, isKey⟩ := Option.map_eq_some_iff.mp shownKey
        have nonempty : value ≠ "" := by
          rintro rfl
          exact ne_empty_of_taken taken (isKey.symm.trans cut_empty)
        have given := givenText_eq_some.mpr ⟨submitted, nonempty⟩
        obtain rfl : value = workKey := by
          rw [keyTaken, given] at taken
          exact Option.some.inj taken
        refine ⟨.inl (given ▸ rfl), fun _ other taken' => ?_, fun _ => shownIsbn⟩
        obtain rfl := Option.some.inj (taken.symm.trans taken')
        exact isKey
  | unknown missed untaken reason =>
      obtain ⟨unkeyed, unanswered⟩ := Option.or_eq_none_iff.mp untaken
      have unresolved : ¬ Resolvable c tenantId ref answers := by
        rintro (⟨b, has⟩ | ⟨other, taken, _⟩)
        · exact missed b has
        · cases untaken.symm.trans taken
      constructor
      · rintro ⟨stored, kept⟩
        refine ⟨nofun, fun other is => ?_⟩
        obtain rfl := Option.some.inj (congrArg Prod.snd is)
        have absent : ref.olWorkKey = none := by
          rcases stored with keyed | ⟨b, has⟩ | known
          · rw [unkeyed] at keyed
            cases keyed
          · exact absurd has (missed b)
          · rw [unanswered] at known
            exact known
        refine Prod.ext ?_ (kept.isbn unresolved)
        change ref.olWorkKey.map (cut 50) = none
        rw [absent]
        rfl
      · rintro ⟨_, shows⟩
        obtain ⟨shownKey, shownIsbn⟩ := Prod.mk.inj (shows _ rfl)
        refine ⟨.inr (.inr ?_), fun _ other taken => ?_, fun _ => shownIsbn⟩
        · rw [unanswered]
          exact Option.map_eq_none_iff.mp shownKey
        · cases untaken.symm.trans taken

end Reference

/-! ### Items and outcomes -/

/-- Two images of a list whose elements one image never ranks above the other are equal as
multisets only if they are equal at every element. -/
theorem perm_map_iff {α β : Type} {f g : α → β} {as : List α} (rank : β → Nat)
    (le : ∀ a ∈ as, rank (f a) ≤ rank (g a))
    (strict : ∀ a ∈ as, rank (f a) = rank (g a) → f a = g a) :
    (as.map f).Perm (as.map g) ↔ ∀ a ∈ as, f a = g a := by
  constructor
  · intro perm
    have sums : (as.map fun a => rank (f a)).sum = (as.map fun a => rank (g a)).sum := by
      have ranked := (perm.map rank).sum_eq
      rwa [List.map_map, List.map_map] at ranked
    by_contra different
    push Not at different
    obtain ⟨a, mem, ne⟩ := different
    have lt : rank (f a) < rank (g a) := lt_of_le_of_ne (le a mem) fun same => ne (strict a mem same)
    exact absurd sums (List.sum_lt_sum _ _ le ⟨a, mem, lt⟩).ne
  · intro same
    rw [List.map_congr_left same]

/-- The unresolved references with what the response says of them. -/
def unresolvedOf : List (BookReference × Nat) → List Resolution → List (BookReference × UnresolvedBook)
  | ref :: refs, (none, some reason) :: later => (ref.1, reason) :: unresolvedOf refs later
  | _ :: refs, _ :: later => unresolvedOf refs later
  | _, _ => []

section Items

variable {s : Database} {entry : Entry} {refs : List (BookReference × Nat)}
  {resolutions : List Resolution} {items : List ReadingListItem}

/-- A reference is unresolved, with a reason, or resolved. -/
theorem resolution_cases {ref : BookReference × Nat} {resolution : Resolution}
    (resolved : resolveIn s.catalog entry.tenantId ref.1 (entry.answers ref.2) = some resolution) :
    (∃ reason, resolution = (none, some reason)) ∨ ∃ book, resolution = (some book, none) := by
  rcases settled_resolveIn resolved with ⟨unresolved, explained⟩ | ⟨book, is, _⟩
  · obtain ⟨reason, isReason⟩ := Option.isSome_iff_exists.mp explained
    exact .inl ⟨reason, Prod.ext unresolved isReason⟩
  · exact .inr ⟨book, is⟩

/-- The item of a reference, by its resolution. -/
theorem item_of_resolveIn {ref : BookReference × Nat} {resolution : Resolution}
    {item : ReadingListItem}
    (resolved : resolveIn s.catalog entry.tenantId ref.1 (entry.answers ref.2) = some resolution)
    (holds : ItemFor s entry ref item) :
    item.resolved = resolution.1.isSome ∧ item.isbn = ref.1.isbn ∧
      item.olWorkKey = (match resolution.1 with
        | some book => some book.olWorkKey
        | none => ref.1.olWorkKey) := by
  obtain ⟨same, returned, is, isbn, workKey, _⟩ := holds
  obtain rfl : same = resolution :=
    Option.some.inj (((reads_resolveBook.returns_iff s same).mp returned).symm.trans resolved)
  exact ⟨is, isbn, workKey⟩

/-- The items of resolved references show their keys as the column keeps them. -/
theorem resolvedItems_eq
    (resolves : Resolves s.catalog entry.tenantId entry.answers refs resolutions)
    (stored : List.Forall₂ (StoredFor s entry) refs items) :
    (items.filter (·.resolved)).map (·.olWorkKey) =
      (resolutions.filterMap (·.1)).map fun book => some (cut 50 book.olWorkKey) := by
  induction resolves generalizing items with
  | nil =>
      cases stored
      rfl
  | @cons ref resolution refs later resolved _ ih =>
      cases stored with
      | cons kept rest =>
          obtain ⟨item, holds, rfl⟩ := kept
          obtain ⟨is, _, workKey⟩ := item_of_resolveIn resolved holds
          rcases resolution with ⟨_ | book, _⟩
          · simpa [ReadingListItem.cut, is] using ih rest
          · simp [ReadingListItem.cut, is, workKey, ih rest]

theorem unresolvedItems_eq
    (resolves : Resolves s.catalog entry.tenantId entry.answers refs resolutions)
    (stored : List.Forall₂ (StoredFor s entry) refs items) :
    ((items.filter (!·.resolved)).map fun item => (item.olWorkKey, item.isbn)) =
      (unresolvedOf refs resolutions).map fun pair => itemShows pair.1 := by
  induction resolves generalizing items with
  | nil =>
      cases stored
      rfl
  | @cons ref resolution refs later resolved _ ih =>
      cases stored with
      | cons kept rest =>
          obtain ⟨item, holds, rfl⟩ := kept
          obtain ⟨is, isbn, workKey⟩ := item_of_resolveIn resolved holds
          rcases resolution_cases resolved with ⟨reason, rfl⟩ | ⟨book, rfl⟩
          · simp [ReadingListItem.cut, itemShows, is, isbn, workKey, unresolvedOf, ih rest]
          · simp [ReadingListItem.cut, is, unresolvedOf, ih rest]

theorem unresolvedBooks_eq
    (resolves : Resolves s.catalog entry.tenantId entry.answers refs resolutions) :
    resolutions.filterMap (·.2) = (unresolvedOf refs resolutions).map (·.2) := by
  induction resolves with
  | nil => rfl
  | @cons ref resolution refs later resolved _ ih =>
      rcases resolution_cases resolved with ⟨reason, rfl⟩ | ⟨book, rfl⟩
      · simp [unresolvedOf, ih]
      · simpa [unresolvedOf] using ih

/-- What holds of every unresolved reference and its reason. -/
theorem forall_unresolvedOf {P : BookReference → UnresolvedBook → Prop}
    (resolves : Resolves s.catalog entry.tenantId entry.answers refs resolutions) :
    (∀ pair ∈ unresolvedOf refs resolutions, P pair.1 pair.2) ↔
      ∀ ref ∈ refs, ∀ reason,
        resolveIn s.catalog entry.tenantId ref.1 (entry.answers ref.2) = some (none, some reason) →
          P ref.1 reason := by
  induction resolves with
  | nil => simp [unresolvedOf]
  | @cons ref resolution refs later resolved _ ih =>
      rw [List.forall_mem_cons, ← ih]
      rcases resolution_cases resolved with ⟨reason, rfl⟩ | ⟨book, rfl⟩
      · simp [unresolvedOf, resolved]
      · simp [unresolvedOf, resolved]

/-- What holds of every resolved reference. -/
theorem forall_resolved {P : ResolvedBook → Prop}
    (resolves : Resolves s.catalog entry.tenantId entry.answers refs resolutions) :
    (∀ book ∈ resolutions.filterMap (·.1), P book) ↔
      ∀ ref ∈ refs, ∀ resolution,
        resolveIn s.catalog entry.tenantId ref.1 (entry.answers ref.2) = some resolution →
          ∀ book ∈ resolution.1, P book := by
  induction resolves with
  | nil => simp
  | @cons ref resolution refs later resolved _ ih =>
      rw [List.forall_mem_cons, ← ih]
      rcases resolution_cases resolved with ⟨reason, rfl⟩ | ⟨book, rfl⟩
      · simp [resolved]
      · simp [resolved]

/-- The resolved items are those the response reports exactly when no key is cut. -/
theorem resolved_perm_iff
    (resolves : Resolves s.catalog entry.tenantId entry.answers refs resolutions)
    (stored : List.Forall₂ (StoredFor s entry) refs items) :
    ((items.filter (·.resolved)).map (·.olWorkKey)).Perm
        ((resolutions.filterMap (·.1)).map fun book => some book.olWorkKey) ↔
      ∀ ref ∈ refs, ∀ resolution,
        resolveIn s.catalog entry.tenantId ref.1 (entry.answers ref.2) = some resolution →
          ∀ book ∈ resolution.1, cut 50 book.olWorkKey = book.olWorkKey := by
  rw [resolvedItems_eq resolves stored, perm_map_iff textLength, ← forall_resolved resolves]
  · exact forall₂_congr fun _ _ => Option.some_inj
  · intro book _
    exact length_cut_le 50 book.olWorkKey
  · intro book _ same
    exact congrArg some (cut_of_length same)

/-- The unresolved items are those the response reports exactly when every item shows what
the response reports of its reference. -/
theorem unresolved_perm_iff
    (resolves : Resolves s.catalog entry.tenantId entry.answers refs resolutions)
    (stored : List.Forall₂ (StoredFor s entry) refs items) :
    ((items.filter (!·.resolved)).map fun item => (item.olWorkKey, item.isbn)).Perm
        ((resolutions.filterMap (·.2)).map fun book => (book.olWorkKey, book.isbn)) ↔
      ∀ ref ∈ refs, ∀ reason,
        resolveIn s.catalog entry.tenantId ref.1 (entry.answers ref.2) =
            some (none, some reason) → itemShows ref.1 = (reason.olWorkKey, reason.isbn) := by
  have ranked := (forall_unresolvedOf (P := fun ref reason =>
    shownRank (itemShows ref) ≤ shownRank (reason.olWorkKey, reason.isbn) ∧
      (shownRank (itemShows ref) = shownRank (reason.olWorkKey, reason.isbn) →
        itemShows ref = (reason.olWorkKey, reason.isbn))) resolves).mpr
    fun ref _ reason resolved => (answered_of_resolveIn resolved).rank
  rw [unresolvedItems_eq resolves stored, unresolvedBooks_eq resolves, List.map_map,
    perm_map_iff shownRank]
  · exact forall_unresolvedOf
      (P := fun ref reason => itemShows ref = (reason.olWorkKey, reason.isbn)) resolves
  · exact fun pair mem => (ranked pair mem).1
  · exact fun pair mem => (ranked pair mem).2

/-- The items are those the response reports exactly when every reference is stored and kept
as it is answered. -/
theorem items_agree_iff (whole : s.catalog.Whole)
    (resolves : Resolves s.catalog entry.tenantId entry.answers refs resolutions)
    (stored : List.Forall₂ (StoredFor s entry) refs items) :
    ((items.filter (·.resolved)).map (·.olWorkKey)).Perm
        ((resolutions.filterMap (·.1)).map fun book => some book.olWorkKey) ∧
      ((items.filter (!·.resolved)).map fun item => (item.olWorkKey, item.isbn)).Perm
        ((resolutions.filterMap (·.2)).map fun book => (book.olWorkKey, book.isbn)) ↔
      ∀ ref ∈ refs, StoredAsAnswered s.catalog entry.tenantId ref.1 (entry.answers ref.2) ∧
        KeptAsAnswered s.catalog entry.tenantId ref.1 (entry.answers ref.2) := by
  rw [resolved_perm_iff resolves stored, unresolved_perm_iff resolves stored,
    ← forall₂_and]
  apply forall₂_congr
  intro ref mem
  obtain ⟨resolution, _, resolved⟩ := exists_of_forall₂ resolves mem
  rw [(answered_of_resolveIn resolved).shown_iff whole]
  simp [resolved]

end Items

/-! ### The list -/

section Serve

variable {env : Environment} {s : Service} {tenantId : Uuid} {submission : Submission}
  {draws : SubmitDraws} {answers : Nat → ReferenceAnswers} {response : ReadingListResponse}

/-- A request that is answered with a response has submitted. -/
theorem submits_of_served
    (served : (serve env s ⟨tenantId, .submitReadingList submission draws answers⟩).1 =
      .submitted response) :
    Submits env.hashing s.db (⟨tenantId, submission, draws, answers⟩, response)
      (serve env s ⟨tenantId, .submitReadingList submission draws answers⟩).2.db := by
  unfold serve at served ⊢
  rw [Service.db_enqueue]
  dsimp only [handle] at served ⊢
  rcases ran : (submit env.hashing tenantId submission draws answers).runOn (.opened s.db) with
    ⟨exc | made, u⟩
  · rw [SessionM.runOn_bind_error ran] at served
    cases served
  · rw [SessionM.runOn_bind_ok ran] at served ⊢
    obtain rfl : made = response := Response.submitted.inj served
    obtain ⟨after, put, rfl⟩ := commits_submit.returns_iff.mp ran
    exact ran

/-- `get_reading_list` shows the tenant's list with the id. -/
theorem served_getReadingList {list : ReadingList} (mem : list ∈ s.db.readingLists.rows)
    (tenant : list.tenantId = tenantId) :
    (serve env s ⟨tenantId, .getReadingList list.id⟩).1 =
      .readingList (readingListOut s.db list) := by
  have one : (s.db.readingLists.rows.filter fun l =>
      l.tenantId = tenantId && l.id = list.id).length ≤ 1 :=
    s.db.readingLists.filter_length_le_one fun a b selectedA selectedB => by
      simp only [Bool.and_eq_true, decide_eq_true_eq] at selectedA selectedB
      exact .inl (selectedA.2.trans selectedB.2.symm)
  have listed : list ∈ s.db.readingLists.rows.filter fun l =>
      l.tenantId = tenantId && l.id = list.id :=
    List.mem_filter.mpr ⟨mem, by simp [tenant]⟩
  obtain ⟨row, rows⟩ := List.length_eq_one_iff.mp (one.antisymm (List.length_pos_of_mem listed))
  rw [rows, List.mem_singleton] at listed
  rw [← listed] at rows
  unfold serve
  dsimp only [handle]
  have ran : (getReadingList tenantId list.id).runOn (.opened s.db) =
      (.ok (some (readingListOut s.db list)), .opened s.db) := by
    change (scalarOneOrNone ((s.db.readingLists.rows.filter fun l =>
      l.tenantId = tenantId && l.id = list.id).map (readingListOut s.db))).runOn (.opened s.db) = _
    rw [rows]
    rfl
  rw [SessionM.runOn_bind_ok ran]
  rfl

/-- The list a submission stored: its name is the one just masked, its email is what the
column kept of the one masked by the first submission of the list. -/
theorem stored_list {db after : Database} {entry : Entry} {hashing : Hashing}
    (submits : Submits hashing db (entry, response) after) :
    ∃ list ∈ after.readingLists.rows, list.id = response.readingListId ∧
      list.tenantId = entry.tenantId ∧ list.patronNameMasked = response.patronNameMasked ∧
      (list.emailMasked = response.emailMasked ↔
        (∀ old, findList entry.tenantId (hashPii hashing entry.submission.email) db = some old →
          maskEmail entry.submission.email = .ok old.emailMasked) ∧
        (findList entry.tenantId (hashPii hashing entry.submission.email) db = none →
          ∀ masked, maskEmail entry.submission.email = .ok masked → cut 255 masked = masked)) := by
  obtain ⟨middle, _, stored, _, _, lists, _, _, _, _, name, masked⟩ := submits_stored submits
  rw [lists, name, masked]
  generalize response.readingListId = listId at stored ⊢
  cases existing : findList entry.tenantId (hashPii hashing entry.submission.email) db with
  | none =>
      rw [existing] at stored
      cases stored with
      | created free rows items =>
          rw [rows]
          refine ⟨_, List.mem_append_right _ List.mem_cons_self, ?_⟩
          simp [newList]
  | some old =>
      rw [existing] at stored
      obtain ⟨mem, tenant, _⟩ := findList_eq_some.mp existing
      cases stored with
      | replaced _ rows items =>
          rw [rows]
          refine ⟨_, List.mem_map_of_mem mem, replaceList_id .., ?_⟩
          simp [replaceList, renamed, tenant, eq_comm]

theorem items_agree {db after : Database} {entry : Entry} {hashing : Hashing}
    (whole : db.catalog.Whole) (owned : ItemsOwned db)
    (submits : Submits hashing db (entry, response) after) :
    (((itemsIn after response.readingListId).filter (·.resolved)).map (·.olWorkKey)).Perm
        (response.resolvedBooks.map fun book => some book.olWorkKey) ∧
      (((itemsIn after response.readingListId).filter (!·.resolved)).map fun item =>
          (item.olWorkKey, item.isbn)).Perm
        (response.unresolvedBooks.map fun book => (book.olWorkKey, book.isbn)) ↔
      ∀ ref ∈ entry.submission.books.zipIdx,
        StoredAsAnswered db.catalog entry.tenantId ref.1 (entry.answers ref.2) ∧
          KeptAsAnswered db.catalog entry.tenantId ref.1 (entry.answers ref.2) := by
  obtain ⟨_, resolutions, _, resolves, _, _, _, _, resolvedBooks, unresolvedBooks, _⟩ :=
    submits_stored submits
  have items := (submits_effect owned submits).1.newItems
  have exclusive : ∀ resolution ∈ resolutions, resolution.1.isSome ↔ resolution.2 = none := by
    intro resolution mem
    obtain ⟨ref, _, resolved⟩ := exists_of_forall₂ resolves.flip mem
    exact settled_exclusive (settled_resolveIn resolved)
  rw [foldr_outcomes exclusive] at resolvedBooks unresolvedBooks
  rw [resolvedBooks, unresolvedBooks]
  exact items_agree_iff whole resolves items

theorem itemsOwned_of_linked {db : Database} (linked : Linked db) : ItemsOwned db := by
  intro item mem
  obtain ⟨list, listMem, same⟩ := List.mem_map.mp (linked.items item mem).1
  exact ⟨list, listMem, same⟩

theorem readsBack_iff (linked : Linked s.db) (whole : s.db.catalog.Whole)
    (served : (serve env s ⟨tenantId, .submitReadingList submission draws answers⟩).1 =
      .submitted response) :
    ReadsBack env (serve env s ⟨tenantId, .submitReadingList submission draws answers⟩).2 tenantId
        response ↔
      Readable env.hashing s.db tenantId submission answers := by
  have submits := submits_of_served served
  generalize (serve env s ⟨tenantId, .submitReadingList submission draws answers⟩).2 = after
    at submits ⊢
  obtain ⟨list, mem, id, tenant, name, email⟩ := stored_list submits
  have items := items_agree whole (itemsOwned_of_linked linked) submits
  have shown : (serve env after ⟨tenantId, .getReadingList response.readingListId⟩).1 =
      .readingList (readingListOut after.db list) := by
    rw [← id]
    exact served_getReadingList mem tenant
  have shownResolved : ((readingListOut after.db list).items.filter (·.resolved)).map
      (·.olWorkKey) =
      ((itemsIn after.db response.readingListId).filter (·.resolved)).map (·.olWorkKey) := by
    simp [readingListOut, itemsIn, id, List.filter_map, Function.comp_def]
  have shownUnresolved : ((readingListOut after.db list).items.filter (!·.resolved)).map
      (fun item => (item.olWorkKey, item.isbn)) =
      ((itemsIn after.db response.readingListId).filter (!·.resolved)).map
        fun item => (item.olWorkKey, item.isbn) := by
    simp [readingListOut, itemsIn, id, List.filter_map, Function.comp_def]
  constructor
  · rintro ⟨_, one, agrees⟩
    obtain rfl := Response.readingList.inj (shown.symm.trans one)
    obtain ⟨sameEmail, created⟩ := email.mp agrees.email
    exact ⟨sameEmail, created,
      items.mp ⟨shownResolved ▸ agrees.resolved, shownUnresolved ▸ agrees.unresolved⟩⟩
  · intro readable
    obtain ⟨resolved, unresolved⟩ := items.mpr readable.references
    refine ⟨_, shown, name, email.mpr ⟨readable.email, readable.created⟩, ?_, ?_⟩
    · rw [shownResolved]
      exact resolved
    · rw [shownUnresolved]
      exact unresolved

end Serve

/-- After every history, a submission that succeeds is read back as it was answered exactly
when the list that was there has the mask of this email, or a new one keeps it whole, and
every reference is stored and kept as it is answered. -/
theorem reads_back_iff {env : Environment} {ops : List Operation} {tenantId : Uuid}
    {submission : Submission} {draws : SubmitDraws} {answers : Nat → ReferenceAnswers}
    {response : ReadingListResponse}
    (served : (serve env (final (serve env) .empty ops)
      ⟨tenantId, .submitReadingList submission draws answers⟩).1 = .submitted response) :
    ReadsBack env
        (serve env (final (serve env) .empty ops)
          ⟨tenantId, .submitReadingList submission draws answers⟩).2 tenantId response ↔
      Readable env.hashing (final (serve env) .empty ops).db tenantId submission answers :=
  readsBack_iff (linked_final env ops) (whole_final env ops) served

/-! ### Divergences -/

/-- `str.lower` on ASCII texts, hashes that keep the text. -/
def caseFolding : Environment where
  str _ := ""
  hashing := ⟨fun text => String.ofList (text.toList.map Char.toLower), id⟩
  collation := ⟨id, fun a b => a ≤ b⟩

/-- Somebody submits one ISBN. -/
def asksFor (email : String) : Submission where
  patronName := "Bob"
  email
  books := [⟨none, some "9780262033848", .inr (by decide)⟩]
  nonempty := by simp

def asks (email : String) (answers : ReferenceAnswers) (id : Uuid) : Operation :=
  ⟨1, .submitReadingList (asksFor email) ⟨id, fun i => id + i + 1⟩ fun _ => answers⟩

/-- What the response says of it. -/
def answeredWith (id : Uuid) (isUpdate : Bool) (emailMasked : String) (workKey : Option String)
    (reason : String) : ReadingListResponse :=
  ⟨id, isUpdate, "B**", emailMasked, [], [⟨workKey, some "9780262033848", reason⟩]⟩

/-- Open Library has a key for the ISBN but not the work. -/
def lostWork : ReferenceAnswers := ⟨.ok (some "OL2W"), .error (.openLibraryError "")⟩

theorem served_unreachable :
    (serve caseFolding (final (serve caseFolding) .empty [])
      (asks "bob@example.com" unreachable 7)).1 =
      .submitted (answeredWith 7 false "b*b@e*****e.com" none "ISBN not found on Open Library") := by
  decide +kernel

/-- With Open Library out of reach the response is read back. -/
theorem unreachable_reads_back :
    ReadsBack caseFolding (serve caseFolding (final (serve caseFolding) .empty [])
        (asks "bob@example.com" unreachable 7)).2 1
      (answeredWith 7 false "b*b@e*****e.com" none "ISBN not found on Open Library") := by
  refine (reads_back_iff served_unreachable).mpr
    ⟨?_, fun _ masked returned => ?_, fun ref mem => ?_⟩
  · intro list found
    cases found
  · have masks : maskEmail "bob@example.com" = .ok "b*b@e*****e.com" := by decide +kernel
    obtain rfl := Except.ok.inj (masks.symm.trans returned)
    exact cut_of_length_le (by decide)
  · obtain rfl := List.mem_singleton.mp mem
    refine ⟨.inr (.inr rfl), fun _ _ taken => ?_, fun _ => ?_⟩
    · cases taken
    · exact congrArg some (cut_of_length_le (by decide))

theorem served_lostWork :
    (serve caseFolding .empty (asks "bob@example.com" lostWork 7)).1 = .submitted
      (answeredWith 7 false "b*b@e*****e.com" (some "OL2W") "Work not found on Open Library") := by
  decide +kernel

/-- Bob has submitted once. -/
def onceAsked : Service :=
  final (serve caseFolding) .empty [asks "bob@example.com" unreachable 7]

theorem served_again :
    (serve caseFolding onceAsked (asks "BOB@EXAMPLE.COM" unreachable 20)).1 = .submitted
      (answeredWith 7 true "B*B@E*****E.COM" none "ISBN not found on Open Library") := by
  decide +kernel

theorem once_stored :
    (findList 1 (hashPii caseFolding.hashing "BOB@EXAMPLE.COM") onceAsked.db).map (·.emailMasked) =
      some "b*b@e*****e.com" := by
  decide +kernel

/-- Bob copies an ISBN with the space that follows it. -/
def copied : Operation :=
  ⟨1, .submitReadingList bobCopies.submission ⟨7, fun i => 8 + i⟩ fun _ => unreachable⟩

theorem served_copied : (serve caseFolding .empty copied).1 = .submitted
    ⟨7, false, "B**", "b*b@e*****e.com", [],
      [⟨none, some "ISBN 978-0-140328721 ", "ISBN not found on Open Library"⟩]⟩ := by
  decide +kernel

/-- The key of the ISBN is reported but not stored; an email in another case is masked in
the response but keeps its first mask in the list; the space after the ISBN is reported but
not kept. -/
theorem response_not_read_back :
    (∃ response, (serve caseFolding .empty (asks "bob@example.com" lostWork 7)).1 =
        .submitted response ∧
      ¬ ReadsBack caseFolding (serve caseFolding .empty (asks "bob@example.com" lostWork 7)).2 1
        response) ∧
    (∃ response, (serve caseFolding onceAsked (asks "BOB@EXAMPLE.COM" unreachable 20)).1 =
        .submitted response ∧
      ¬ ReadsBack caseFolding (serve caseFolding onceAsked (asks "BOB@EXAMPLE.COM" unreachable 20)).2
        1 response) ∧
    ∃ response, (serve caseFolding .empty copied).1 = .submitted response ∧
      ¬ ReadsBack caseFolding (serve caseFolding .empty copied).2 1 response := by
  refine ⟨⟨_, served_lostWork, fun back => ?_⟩, ⟨_, served_again, fun back => ?_⟩,
    _, served_copied, fun back => ?_⟩
  · have readable := (readsBack_iff linked_empty Catalog.whole_empty served_lostWork).mp back
    obtain ⟨stored, _⟩ := readable.references (⟨none, some "9780262033848", .inr (by decide)⟩, 0)
      List.mem_cons_self
    rcases stored with keyed | ⟨b, mem, _⟩ | ⟨b, mem, _⟩ | ⟨_, answered⟩
    · cases keyed
    · cases mem
    · cases mem
    · cases answered
  · have readable := (readsBack_iff (linked_final caseFolding _) (whole_final caseFolding _)
      served_again).mp back
    obtain ⟨list, found, masked⟩ := Option.map_eq_some_iff.mp once_stored
    have accepted := readable.email list found
    rw [masked] at accepted
    exact absurd accepted (by decide +kernel)
  · have readable := (readsBack_iff linked_empty Catalog.whole_empty served_copied).mp back
    obtain ⟨_, kept⟩ := readable.references
      (⟨none, some "ISBN 978-0-140328721 ", .inr (by decide)⟩, 0) List.mem_cons_self
    have unresolved : ¬ Resolvable Catalog.empty 1
        ⟨none, some "ISBN 978-0-140328721 ", .inr (by decide)⟩ unreachable := by
      rintro (⟨b, mem, _⟩ | ⟨_, taken, _⟩)
      · cases mem
      · cases taken
    exact absurd (kept.isbn unresolved) (by decide +kernel)

end TenantLibrary.Api
