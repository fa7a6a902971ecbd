import Mathlib.Data.List.Infix
import TenantLibrary.Books.Service

/-!
What the filters of `list_books` select.

The text of a filter becomes the pattern `%text%` as it is, so the characters `%`, `_` and
the backslash in it are read as `like` reads them; a year is bound as it is, whatever its
size. `filters_mean_literally_iff` says for which filters `list_books` answers with the books
the filters describe; for a text with special characters, `decoy` is a name the pattern
matches and that does not contain the text.
-/

namespace TenantLibrary.Books

open TenantLibrary.Lib TenantLibrary.OpenLibrary TenantLibrary.Store TenantLibrary.Ingestion
  TenantLibrary.Api

/-! ### Patterns -/

/-- The characters `like` does not take literally. -/
def special (c : Char) : Bool := c = '%' || c = '_' || c = '\\'

theorem special_iff {c : Char} : special c = true ↔ c = '%' ∨ c = '_' ∨ c = '\\' := by
  simp [special, or_assoc]

/-- A text that the pattern made of a filter's text matches. -/
def decoy : List Char → List Char
  | [] => []
  -- the backslash escapes the `%` that closes the pattern
  | ['\\'] => ['%']
  | '\\' :: c :: pattern => c :: decoy pattern
  | '%' :: pattern => decoy pattern
  | '_' :: pattern => '%' :: decoy pattern
  | c :: pattern => c :: decoy pattern

theorem ne_of_literal {c : Char} (literal : special c = false) : c ≠ '\\' ∧ c ≠ '%' ∧ c ≠ '_' := by
  refine ⟨?_, ?_, ?_⟩ <;> rintro rfl <;> cases literal

theorem like_literal_nil {c : Char} (literal : special c = false) (pattern : List Char) :
    like (c :: pattern) [] = false := by
  obtain ⟨notEscape, notPercent, notUnderscore⟩ := ne_of_literal literal
  simp [like, notEscape]

theorem like_literal_cons {c : Char} (literal : special c = false) (pattern : List Char)
    (first : Char) (rest : List Char) :
    like (c :: pattern) (first :: rest) = (first = c && like pattern rest) := by
  obtain ⟨notEscape, notPercent, notUnderscore⟩ := ne_of_literal literal
  simp [like, notEscape]

theorem decoy_literal {c : Char} (literal : special c = false) (pattern : List Char) :
    decoy (c :: pattern) = c :: decoy pattern := by
  obtain ⟨notEscape, notPercent, notUnderscore⟩ := ne_of_literal literal
  simp [decoy, notEscape]

/-- The first character of a pattern in the last case of `decoy`. -/
theorem literal_of_cases {c : Char} {pattern : List Char}
    (notLast : c = '\\' → pattern = [] → False)
    (notEscape : ∀ next rest, c = '\\' → pattern = next :: rest → False)
    (notPercent : c = '%' → False) (notUnderscore : c = '_' → False) : special c = false := by
  have notBackslash : c ≠ '\\' := fun backslash => by
    cases pattern with
    | nil => exact notLast backslash rfl
    | cons next rest => exact notEscape next rest backslash rfl
  rw [Bool.eq_false_iff, Ne, special_iff]
  rintro (percent | underscore | backslash)
  · exact notPercent percent
  · exact notUnderscore underscore
  · exact notBackslash backslash

/-- Without special characters the pattern asks for a prefix. -/
theorem like_append_iff {pattern : List Char} (literal : ∀ c ∈ pattern, special c = false)
    (text : List Char) : like (pattern ++ ['%']) text = true ↔ pattern <+: text := by
  induction pattern generalizing text with
  | nil => simp [like]
  | cons c pattern ih =>
      have here := literal c List.mem_cons_self
      cases text with
      | nil => simp [like_literal_nil here]
      | cons first rest =>
          have further := ih (fun d mem => literal d (List.mem_cons_of_mem _ mem)) rest
          rw [List.cons_append, like_literal_cons here, Bool.and_eq_true, decide_eq_true_eq,
            further, List.cons_prefix_cons, @eq_comm _ first]

theorem like_percent_iff {pattern text : List Char} :
    like ('%' :: pattern) text = true ↔ ∃ rest, rest <:+ text ∧ like pattern rest = true := by
  simp [like]

/-- Without special characters the pattern of a filter asks for a part of the text. -/
theorem like_contains_iff {pattern : List Char} (literal : ∀ c ∈ pattern, special c = false)
    (text : List Char) : like ('%' :: (pattern ++ ['%'])) text = true ↔ pattern <:+: text := by
  rw [like_percent_iff, List.infix_iff_prefix_suffix]
  constructor
  · rintro ⟨rest, suffix, matched⟩
    exact ⟨rest, (like_append_iff literal rest).mp matched, suffix⟩
  · rintro ⟨rest, isPrefix, suffix⟩
    exact ⟨rest, suffix, (like_append_iff literal rest).mpr isPrefix⟩

/-- The pattern matches the decoy. -/
theorem like_decoy (pattern : List Char) : like ('%' :: (pattern ++ ['%'])) (decoy pattern) = true := by
  suffices whole : like (pattern ++ ['%']) (decoy pattern) = true from
    like_percent_iff.mpr ⟨_, List.suffix_refl _, whole⟩
  induction pattern using decoy.induct with
  | case1 => rfl
  | case2 => rfl
  | case3 c pattern ih => simpa [like, decoy] using ih
  | case4 pattern ih =>
      exact like_percent_iff.mpr ⟨_, List.suffix_refl _, ih⟩
  | case5 pattern ih => simpa [like, decoy] using ih
  | case6 c pattern notLast notEscape notPercent notUnderscore ih =>
      have literal := literal_of_cases notLast notEscape notPercent notUnderscore
      rw [decoy_literal literal, List.cons_append, like_literal_cons literal, ih]
      simp

theorem length_decoy_le (pattern : List Char) : (decoy pattern).length ≤ pattern.length := by
  induction pattern using decoy.induct with
  | case1 => exact Nat.le_refl 0
  | case2 => exact Nat.le_refl 1
  | case3 c pattern ih =>
      simp only [decoy, List.length_cons]
      omega
  | case4 pattern ih =>
      simp only [decoy, List.length_cons]
      omega
  | case5 pattern ih =>
      simp only [decoy, List.length_cons]
      omega
  | case6 c pattern notLast notEscape notPercent notUnderscore ih =>
      rw [decoy_literal (literal_of_cases notLast notEscape notPercent notUnderscore)]
      exact Nat.succ_le_succ ih

/-- Only a text without special characters is its own decoy. -/
theorem literal_of_decoy_eq {pattern : List Char} (same : decoy pattern = pattern) :
    ∀ c ∈ pattern, special c = false := by
  induction pattern using decoy.induct with
  | case1 => nofun
  | case2 => cases same
  | case3 c pattern ih =>
      have shorter := congrArg List.length same
      have bound := length_decoy_le pattern
      simp only [decoy, List.length_cons] at shorter
      omega
  | case4 pattern ih =>
      have shorter := congrArg List.length same
      have bound := length_decoy_le pattern
      simp only [decoy, List.length_cons] at shorter
      omega
  | case5 pattern ih =>
      obtain ⟨different, _⟩ := List.cons.inj same
      cases different
  | case6 c pattern notLast notEscape notPercent notUnderscore ih =>
      have literal := literal_of_cases notLast notEscape notPercent notUnderscore
      rw [decoy_literal literal, List.cons.injEq] at same
      exact List.forall_mem_cons.mpr ⟨literal, ih same.2⟩

theorem decoy_eq_of_literal {pattern : List Char} (literal : ∀ c ∈ pattern, special c = false) :
    decoy pattern = pattern := by
  induction pattern with
  | nil => rfl
  | cons c pattern ih =>
      obtain ⟨first, rest⟩ := List.forall_mem_cons.mp literal
      rw [decoy_literal first, ih rest]

/-- The decoy contains the text only if it is the text. -/
theorem literal_of_infix_decoy {pattern : List Char} (part : pattern <:+: decoy pattern) :
    ∀ c ∈ pattern, special c = false :=
  literal_of_decoy_eq
    (part.eq_of_length (part.length_le.antisymm (length_decoy_le pattern))).symm

/-! ### Letter case -/

/-- The database changes the case of a text character by character, and leaves the special
characters alone. -/
structure Collation.Charwise (collation : Collation) (lowerChar : Char → Char) : Prop where
  lower : ∀ text, (collation.lower text).toList = text.toList.map lowerChar
  fixes : ∀ c, special c = true → lowerChar c = c
  only : ∀ c, special (lowerChar c) = true → special c = true

/-- The text contains the part, whatever the case of the letters. -/
def Collation.Contains (collation : Collation) (text part : String) : Prop :=
  (collation.lower part).toList <:+: (collation.lower text).toList

/-- The condition a filter's text puts on a name. -/
def Collation.Matches (collation : Collation) (name text : String) : Prop :=
  collation.ilike name ("%" ++ text ++ "%") = true

/-- No character of the text is special. -/
def Literal (text : String) : Prop := ∀ c ∈ text.toList, special c = false

theorem literal_iff {text : String} :
    Literal text ↔ (text.toList.all fun c => !special c) = true := by
  simp [Literal]

def decoyText (text : String) : String := String.ofList (decoy text.toList)

section

variable {collation : Collation} {lowerChar : Char → Char}

theorem Collation.Charwise.special_lower (charwise : collation.Charwise lowerChar) (c : Char) :
    special (lowerChar c) = special c := by
  rw [Bool.eq_iff_iff]
  refine ⟨charwise.only c, fun isSpecial => ?_⟩
  rwa [charwise.fixes c isSpecial]

theorem Collation.Charwise.lower_pattern (charwise : collation.Charwise lowerChar) (text : String) :
    (collation.lower ("%" ++ text ++ "%")).toList =
      '%' :: (text.toList.map lowerChar ++ ['%']) := by
  have percent : lowerChar '%' = '%' := charwise.fixes '%' rfl
  simp [charwise.lower, percent]

theorem Collation.Charwise.literal_lower_iff (charwise : collation.Charwise lowerChar)
    {text : String} : (∀ c ∈ text.toList.map lowerChar, special c = false) ↔ Literal text := by
  simp only [List.forall_mem_map, charwise.special_lower, Literal]

/-- The decoy of a lowered text. -/
theorem Collation.Charwise.map_decoy (charwise : collation.Charwise lowerChar)
    (pattern : List Char) : (decoy pattern).map lowerChar = decoy (pattern.map lowerChar) := by
  have percent : lowerChar '%' = '%' := charwise.fixes '%' rfl
  have underscore : lowerChar '_' = '_' := charwise.fixes '_' rfl
  have backslash : lowerChar '\\' = '\\' := charwise.fixes '\\' rfl
  induction pattern using decoy.induct with
  | case1 => rfl
  | case2 => simp [decoy, percent, backslash]
  | case3 c pattern ih => simp [decoy, backslash, ih]
  | case4 pattern ih => simp [decoy, percent, ih]
  | case5 pattern ih => simp [decoy, percent, underscore, ih]
  | case6 c pattern notLast notEscape notPercent notUnderscore ih =>
      have literal := literal_of_cases notLast notEscape notPercent notUnderscore
      have lowered : special (lowerChar c) = false := (charwise.special_lower c).trans literal
      rw [decoy_literal literal, List.map_cons, List.map_cons, decoy_literal lowered, ih]

/-- A literal text is matched by the names that contain it. -/
theorem Collation.Charwise.matches_iff (charwise : collation.Charwise lowerChar) {text : String}
    (literal : Literal text) (name : String) :
    collation.Matches name text ↔ collation.Contains name text := by
  unfold Collation.Matches Collation.Contains Collation.ilike
  rw [charwise.lower_pattern, charwise.lower text]
  exact like_contains_iff (charwise.literal_lower_iff.mpr literal) _

/-- Every text is matched by its decoy. -/
theorem Collation.Charwise.matches_decoy (charwise : collation.Charwise lowerChar)
    (text : String) : collation.Matches (decoyText text) text := by
  unfold Collation.Matches Collation.ilike
  rw [charwise.lower_pattern, charwise.lower, decoyText, String.toList_ofList, charwise.map_decoy]
  exact like_decoy _

/-- Only a literal text is contained in its decoy. -/
theorem Collation.Charwise.literal_of_contains_decoy (charwise : collation.Charwise lowerChar)
    {text : String} (contains : collation.Contains (decoyText text) text) : Literal text := by
  unfold Collation.Contains at contains
  rw [charwise.lower, charwise.lower, decoyText, String.toList_ofList, charwise.map_decoy]
    at contains
  exact charwise.literal_lower_iff.mp (literal_of_infix_decoy contains)

/-- What a literal text contains is literal. -/
theorem Collation.Charwise.literal_of_contains (charwise : collation.Charwise lowerChar)
    {text part : String} (literal : Literal text) (contains : collation.Contains text part) :
    Literal part := by
  unfold Collation.Contains at contains
  rw [charwise.lower, charwise.lower] at contains
  exact charwise.literal_lower_iff.mp fun c mem =>
    charwise.literal_lower_iff.mpr literal c (contains.subset mem)

end

/-! ### Filters -/

/-- The name of some author linked to the book meets a condition. -/
def SomeAuthor (c : Catalog) (bookId : Uuid) (condition : String → Prop) : Prop :=
  ∃ l ∈ c.bookAuthors.rows, l.bookId = bookId ∧
    ∃ a ∈ c.authors.rows, a.id = l.authorId ∧ condition a.name

/-- Some subject of the book meets a condition. -/
def SomeSubject (c : Catalog) (bookId : Uuid) (condition : String → Prop) : Prop :=
  ∃ s ∈ c.bookSubjects.rows, s.bookId = bookId ∧ condition s.subject

/-- The book meets the filters, when `holds name text` is what a filter's text asks of a
name. An empty text asks nothing. -/
structure BookFilters.Meets (filters : BookFilters) (holds : String → String → Prop) (c : Catalog)
    (b : Book) : Prop where
  author : ∀ text, filters.author = some text → text ≠ "" →
    SomeAuthor c b.id fun name => holds name text
  subject : ∀ text, filters.subject = some text → text ≠ "" →
    SomeSubject c b.id fun subject => holds subject text
  yearFrom : ∀ year, filters.yearFrom = some year →
    ∃ published, b.firstPublishYear = some published ∧ year ≤ published
  yearTo : ∀ year, filters.yearTo = some year →
    ∃ published, b.firstPublishYear = some published ∧ published ≤ year
  q : ∀ text, filters.q = some text → text ≠ "" →
    holds b.title text ∨ SomeAuthor c b.id fun name => holds name text

/-- `list_books` answers with the books the filters describe, every text taken literally: their
number, and the page of them in the order of the titles. -/
def BookFilters.MeanLiterally (collation : Collation) (filters : BookFilters) : Prop :=
  ∀ (db : Database) tenantId, ∃ matched : List Book,
    matched.Sublist db.catalog.books.rows ∧
    (∀ b, b ∈ matched ↔ b ∈ db.catalog.books.rows ∧ b.tenantId = tenantId ∧
      filters.Meets collation.Contains db.catalog b) ∧
    ∀ params : PageParams, params.Reachable →
      (listBooks collation tenantId filters params).runOn (.opened db) =
        (.ok (params.respond matched.length
          ((params.slice (matched.mergeSort fun a b => collation.le a.title b.title)).map
            (bookSummary db.catalog))), .opened db)

/-- The texts of the filters. -/
def BookFilters.texts (filters : BookFilters) : List String :=
  [filters.author, filters.subject, filters.q].filterMap id

/-- The texts have no NUL, and the years are of 32 bits. -/
def filtersFit (filters : BookFilters) : Prop :=
  (filters.author.all noNul ∧ filters.subject.all noNul ∧ filters.q.all noNul) ∧
    filters.yearFrom.all (fitsBits 32) ∧ filters.yearTo.all (fitsBits 32)

/-- No year is within the bounds. -/
def BookFilters.NoYear (filters : BookFilters) : Prop :=
  ∃ first last, filters.yearFrom = some first ∧ filters.yearTo = some last ∧ last < first

variable {collation : Collation} {lowerChar : Char → Char} {filters : BookFilters}
  {holds holds' : String → String → Prop} {c : Catalog} {b : Book}

theorem SomeAuthor.imp {bookId : Uuid} {condition condition' : String → Prop}
    (weaker : ∀ name, condition name → condition' name) (some_ : SomeAuthor c bookId condition) :
    SomeAuthor c bookId condition' := by
  obtain ⟨l, mem, linked, a, known, same, held⟩ := some_
  exact ⟨l, mem, linked, a, known, same, weaker _ held⟩

theorem SomeSubject.imp {bookId : Uuid} {condition condition' : String → Prop}
    (weaker : ∀ subject, condition subject → condition' subject)
    (some_ : SomeSubject c bookId condition) : SomeSubject c bookId condition' := by
  obtain ⟨s, mem, its, held⟩ := some_
  exact ⟨s, mem, its, weaker _ held⟩

theorem hasAuthorLike_iff {pattern : String} {bookId : Uuid} :
    hasAuthorLike collation pattern c bookId = true ↔
      SomeAuthor c bookId fun name => collation.ilike name pattern = true := by
  simp [hasAuthorLike, SomeAuthor]

theorem hasSubjectLike_iff {pattern : String} {bookId : Uuid} :
    hasSubjectLike collation pattern c bookId = true ↔
      SomeSubject c bookId fun subject => collation.ilike subject pattern = true := by
  simp [hasSubjectLike, SomeSubject]

theorem ifGiven_iff {text : Option String} {condition : String → Bool} :
    ifGiven text condition = true ↔
      ∀ given, text = some given → given ≠ "" → condition ("%" ++ given ++ "%") = true := by
  unfold ifGiven
  split
  case h_1 => simp
  case h_2 given =>
    split
    case isTrue empty => simp [empty]
    case isFalse notEmpty => simp [notEmpty]

/-- The statement selects what meets the filters with their texts as patterns. -/
theorem select_iff : filters.select collation c b = true ↔ filters.Meets collation.Matches c b := by
  unfold BookFilters.select
  simp only [Bool.and_eq_true, Bool.or_eq_true, ifGiven_iff, hasAuthorLike_iff, hasSubjectLike_iff]
  constructor
  · rintro ⟨⟨⟨⟨author, subject⟩, yearFrom⟩, yearTo⟩, q⟩
    refine ⟨author, subject, fun year given => ?_, fun year given => ?_, q⟩
    · simpa [given, Option.any_eq_true] using yearFrom
    · simpa [given, Option.any_eq_true] using yearTo
  · intro meets
    refine ⟨⟨⟨⟨meets.author, meets.subject⟩, ?_⟩, ?_⟩, meets.q⟩
    · cases given : filters.yearFrom with
      | none => rfl
      | some year => simpa [Option.any_eq_true] using meets.yearFrom year given
    · cases given : filters.yearTo with
      | none => rfl
      | some year => simpa [Option.any_eq_true] using meets.yearTo year given

theorem mem_baseRows_iff {tenantId : Uuid} :
    b ∈ baseRows collation tenantId filters c ↔
      b ∈ c.books.rows ∧ b.tenantId = tenantId ∧ filters.Meets collation.Matches c b := by
  simp only [baseRows, List.mem_filter, Bool.and_eq_true, decide_eq_true_eq, select_iff]

theorem mem_texts {text : String} : text ∈ filters.texts ↔
    filters.author = some text ∨ filters.subject = some text ∨ filters.q = some text := by
  simp [BookFilters.texts, eq_comm]

theorem BookFilters.Meets.imp
    (weaker : ∀ text ∈ filters.texts, ∀ name, holds name text → holds' name text)
    (meets : filters.Meets holds c b) : filters.Meets holds' c b := by
  constructor
  case author =>
    intro text given notEmpty
    exact (meets.author text given notEmpty).imp (weaker text (mem_texts.mpr (.inl given)))
  case subject =>
    intro text given notEmpty
    exact (meets.subject text given notEmpty).imp (weaker text (mem_texts.mpr (.inr (.inl given))))
  case yearFrom => exact meets.yearFrom
  case yearTo => exact meets.yearTo
  case q =>
    intro text given notEmpty
    have implied := weaker text (mem_texts.mpr (.inr (.inr given)))
    exact (meets.q text given notEmpty).imp (implied _) (·.imp implied)

theorem BookFilters.NoYear.not_meets (noYear : filters.NoYear) : ¬ filters.Meets holds c b := by
  intro meets
  obtain ⟨first, last, isFrom, isTo, empty⟩ := noYear
  obtain ⟨published, known, after⟩ := meets.yearFrom first isFrom
  obtain ⟨published', known', before⟩ := meets.yearTo last isTo
  obtain rfl := Option.some.inj (known.symm.trans known')
  omega

/-! ### What is bound -/

theorem fits_pattern {text : Option String} :
    (∀ parameter ∈ patternParameters text, parameter.fits) ↔ text.all noNul := by
  cases text with
  | none => exact iff_of_true nofun rfl
  | some text =>
      by_cases empty : text = ""
      · subst empty
        exact iff_of_true nofun rfl
      · simp [patternParameters, Option.filter, empty, fits_text_iff, noNul]

theorem fits_filters {filters : BookFilters} :
    (∀ parameter ∈ filterParameters filters, parameter.fits) ↔ filtersFit filters := by
  have year (number : Option Int) :
      (∀ parameter ∈ number.toList.map Parameter.integer, parameter.fits) ↔
        number.all (fitsBits 32) := by
    cases number <;> simp [Parameter.fits]
  simp only [filterParameters, List.forall_mem_append, fits_pattern, year, filtersFit]
  tauto

/-- `list_books` is answered when the database takes all that it binds. -/
theorem runOn_listBooks {tenantId : Uuid} {params : PageParams} {db : Database} :
    (listBooks collation tenantId filters params).runOn (.opened db) =
      (if (filterParameters filters).all Parameter.fits && params.parameters.all Parameter.fits then
        .ok (params.respond (baseRows collation tenantId filters db.catalog).length
          (pageOfBooks collation tenantId filters params db.catalog))
      else .error (.database refusedParameter), .opened db) := by
  rw [listBooks, SessionM.runOn_bind, runOn_selectBinding]
  cases bound : (filterParameters filters).all Parameter.fits with
  | false => rfl
  | true =>
      rw [if_pos rfl]
      dsimp only
      rw [SessionM.runOn_bind, runOn_selectBinding, List.all_append, bound]
      cases params.parameters.all Parameter.fits <;> rfl

theorem runOn_listBooks_of_fits {tenantId : Uuid} {params : PageParams} {db : Database}
    (fits : filtersFit filters) (reachable : params.Reachable) :
    (listBooks collation tenantId filters params).runOn (.opened db) =
      (.ok (params.respond (baseRows collation tenantId filters db.catalog).length
        (pageOfBooks collation tenantId filters params db.catalog)), .opened db) := by
  rw [runOn_listBooks, List.all_eq_true.mpr (fits_filters.mpr fits),
    List.all_eq_true.mpr (fits_page.mpr reachable)]
  rfl

theorem filtersFit_of_runOn {tenantId : Uuid} {params : PageParams} {db : Database}
    {response : PaginatedResponse BookSummary}
    (answered : (listBooks collation tenantId filters params).runOn (.opened db) =
      (.ok response, .opened db)) : filtersFit filters := by
  rw [runOn_listBooks] at answered
  split at answered
  case isTrue fits =>
    exact fits_filters.mp (List.all_eq_true.mp (Bool.and_eq_true_iff.mp fits).1)
  case isFalse => cases (Prod.mk.inj answered).1

/-! ### The catalog that shows the difference -/

/-- The decoy of a filter's text. -/
def decoyName (text : Option String) : String := decoyText (text.getD "")

/-- A book whose title is a decoy, published in a year within the bounds. -/
def decoyBook (filters : BookFilters) : Book where
  id := 1
  tenantId := 1
  olWorkKey := "OL1W"
  isbn := none
  title := decoyName filters.q
  firstPublishYear := filters.yearFrom <|> filters.yearTo
  coverId := none
  coverUrl := none
  description := none

/-- That book, with an author and a subject whose names are decoys. -/
def decoyCatalog (filters : BookFilters) : Catalog where
  books := ⟨[decoyBook filters], List.pairwise_singleton _ _⟩
  authors := ⟨[⟨1, 1, "OL1A", decoyName filters.author⟩], List.pairwise_singleton _ _⟩
  bookAuthors := ⟨[⟨1, 1⟩], List.pairwise_singleton _ _⟩
  bookSubjects := ⟨[⟨1, decoyName filters.subject⟩], List.pairwise_singleton _ _⟩

theorem someAuthor_decoyCatalog {condition : String → Prop} :
    SomeAuthor (decoyCatalog filters) (decoyBook filters).id condition ↔
      condition (decoyName filters.author) := by
  simp [SomeAuthor, decoyCatalog, decoyBook]

theorem someSubject_decoyCatalog {condition : String → Prop} :
    SomeSubject (decoyCatalog filters) (decoyBook filters).id condition ↔
      condition (decoyName filters.subject) := by
  simp [SomeSubject, decoyCatalog, decoyBook]

/-- The statement selects the decoy. -/
theorem Collation.Charwise.decoy_selected (charwise : collation.Charwise lowerChar)
    (someYear : ¬ filters.NoYear) :
    filters.Meets collation.Matches (decoyCatalog filters) (decoyBook filters) := by
  have matched {given : Option String} {text : String} (isGiven : given = some text) :
      collation.Matches (decoyName given) text := by
    subst isGiven
    exact charwise.matches_decoy text
  constructor
  case author => exact fun text given _ => someAuthor_decoyCatalog.mpr (matched given)
  case subject => exact fun text given _ => someSubject_decoyCatalog.mpr (matched given)
  case yearFrom =>
    intro first given
    exact ⟨first, by simp [decoyBook, given], le_refl first⟩
  case yearTo =>
    intro last given
    cases isFrom : filters.yearFrom with
    | none => exact ⟨last, by simp [decoyBook, given, isFrom], le_refl last⟩
    | some first =>
        refine ⟨first, by simp [decoyBook, isFrom], ?_⟩
        by_contra after
        exact someYear ⟨first, last, isFrom, given, not_le.mp after⟩
  case q => exact fun text given _ => .inl (matched given)

/-- The decoy meets the filters only when their texts are literal. -/
theorem Collation.Charwise.literal_of_decoy_meets (charwise : collation.Charwise lowerChar)
    (meets : filters.Meets collation.Contains (decoyCatalog filters) (decoyBook filters)) :
    ∀ text ∈ filters.texts, Literal text := by
  have literal {given : Option String} {text : String} (isGiven : given = some text)
      (contains : collation.Contains (decoyName given) text) : Literal text := by
    subst isGiven
    exact charwise.literal_of_contains_decoy contains
  have author (text : String) (given : filters.author = some text) : Literal text := by
    by_cases empty : text = ""
    · subst empty
      nofun
    · exact literal given (someAuthor_decoyCatalog.mp (meets.author text given empty))
  -- the author's name is literal, also when no author is given
  have name : Literal (decoyName filters.author) := by
    cases given : filters.author with
    | none => nofun
    | some text =>
        have same : decoy text.toList = text.toList := decoy_eq_of_literal (author text given)
        simpa [Literal, decoyName, decoyText, same] using author text given
  intro text mem
  by_cases empty : text = ""
  · subst empty
    nofun
  rcases mem_texts.mp mem with given | given | given
  · exact author text given
  · exact literal given (someSubject_decoyCatalog.mp (meets.subject text given empty))
  · rcases meets.q text given empty with inTitle | inName
    · exact literal given inTitle
    · exact charwise.literal_of_contains name (someAuthor_decoyCatalog.mp inName)

theorem reachable_first : PageParams.first.Reachable := PageParams.reachable_iff.mpr (by decide)

/-- The only book of a catalog is described when it is found. -/
theorem BookFilters.MeanLiterally.describes_only (mean : filters.MeanLiterally collation)
    {db : Database} {tenantId : Uuid} (only : db.catalog.books.rows = [b])
    (found : b ∈ baseRows collation tenantId filters db.catalog) :
    filters.Meets collation.Contains db.catalog b := by
  obtain ⟨matched, _, described, answered⟩ := mean db tenantId
  have answer := answered .first reachable_first
  have returned := answer.symm.trans
    (runOn_listBooks_of_fits (filtersFit_of_runOn answer) reachable_first)
  have counted : matched.length = (baseRows collation tenantId filters db.catalog).length :=
    congrArg PaginatedResponse.total (Except.ok.inj (Prod.mk.inj returned).1)
  obtain ⟨other, mem⟩ := List.exists_mem_of_length_pos (counted ▸ List.length_pos_of_mem found)
  obtain ⟨stored, _, meets⟩ := (described other).mp mem
  rw [only] at stored
  obtain rfl := List.mem_singleton.mp stored
  exact meets

/-- The filters mean what they say exactly when the database takes what they bind and no year
is within their bounds or all their texts are literal. -/
theorem filters_mean_literally_iff (charwise : collation.Charwise lowerChar)
    (filters : BookFilters) :
    filters.MeanLiterally collation ↔
      (filters.NoYear ∨ ∀ text ∈ filters.texts, Literal text) ∧ filtersFit filters := by
  constructor
  · intro mean
    let db : Database := { Database.empty with catalog := decoyCatalog filters }
    obtain ⟨_, _, _, answered⟩ := mean db 1
    refine ⟨?_, filtersFit_of_runOn (answered .first reachable_first)⟩
    by_cases noYear : filters.NoYear
    · exact .inl noYear
    · have selected : decoyBook filters ∈ baseRows collation 1 filters (decoyCatalog filters) :=
        mem_baseRows_iff.mpr ⟨List.mem_singleton_self _, rfl, charwise.decoy_selected noYear⟩
      have meets := @BookFilters.MeanLiterally.describes_only _ _ _ mean db 1 rfl selected
      exact .inr (charwise.literal_of_decoy_meets meets)
  · rintro ⟨plain, fits⟩ db tenantId
    refine ⟨baseRows collation tenantId filters db.catalog, List.filter_sublist, fun b => ?_,
      fun params reachable => runOn_listBooks_of_fits fits reachable⟩
    rw [mem_baseRows_iff]
    rcases plain with noYear | literal
    · exact ⟨fun row => absurd row.2.2 noYear.not_meets, fun row => absurd row.2.2 noYear.not_meets⟩
    · have agree (text : String) (mem : text ∈ filters.texts) (name : String) :
          collation.Matches name text ↔ collation.Contains name text :=
        charwise.matches_iff (literal text mem) name
      have meets : filters.Meets collation.Matches db.catalog b ↔
          filters.Meets collation.Contains db.catalog b :=
        ⟨.imp fun text mem name => (agree text mem name).mp,
          .imp fun text mem name => (agree text mem name).mpr⟩
      rw [meets]

/-! ### The letters A to Z -/

/-- A database that only knows the case of the letters A to Z. -/
def asciiCollation : Collation := ⟨fun text => text.map Char.toLower, fun a b => a ≤ b⟩

/-- A small letter is not a special character. -/
theorem ne_special_of_capital {code : UInt32} (capital : 65 ≤ code ∧ code ≤ 90) :
    code + (97 - 65) ≠ 37 ∧ code + (97 - 65) ≠ 95 ∧ code + (97 - 65) ≠ 92 := by
  grind

theorem special_toLower (c : Char) : special c.toLower = special c := by
  unfold Char.toLower
  split
  case isTrue upper =>
    have capital : special c = false := by
      rw [Bool.eq_false_iff, Ne, special_iff]
      rintro (rfl | rfl | rfl) <;> exact absurd upper (by decide)
    obtain ⟨notPercent, notUnderscore, notBackslash⟩ := ne_special_of_capital upper
    rw [capital, Bool.eq_false_iff, Ne, special_iff]
    rintro (percent | underscore | backslash)
    · exact notPercent (congrArg Char.val percent)
    · exact notUnderscore (congrArg Char.val underscore)
    · exact notBackslash (congrArg Char.val backslash)
  case isFalse => rfl

theorem charwise_ascii : asciiCollation.Charwise Char.toLower where
  lower text := String.toList_map
  fixes c isSpecial := by
    rcases special_iff.mp isSpecial with rfl | rfl | rfl <;> rfl
  only c isSpecial := special_toLower c ▸ isSpecial

/-- An author and a keyword without special characters. -/
theorem plain_filters_mean_literally :
    (BookFilters.mk (some "Le Guin") none (some 1960) (some 1980) (some "")).MeanLiterally
      asciiCollation := by
  refine (filters_mean_literally_iff charwise_ascii _).mpr ⟨.inr fun text mem => ?_, ?_⟩
  · rcases mem_texts.mp mem with given | given | given
    · obtain rfl : "Le Guin" = text := Option.some.inj given
      exact literal_iff.mpr (by decide +kernel)
    · cases given
    · obtain rfl : "" = text := Option.some.inj given
      nofun
  · unfold filtersFit
    decide +kernel

/-- A book that the keyword "100%" does not describe. -/
def nights : Book := ⟨1, 1, "OL1W", none, "1001 Nights", none, none, none, none⟩

def nightsCatalog : Catalog := ⟨⟨[nights], List.pairwise_singleton _ _⟩, .empty, .empty, .empty⟩

def hundredPercent : BookFilters := ⟨none, none, none, none, some "100%"⟩

def sinceTooFar : BookFilters := ⟨none, none, some (2 ^ 31), none, none⟩

def authorNul : BookFilters := ⟨some "\x00", none, none, none, none⟩

/-- The keyword finds the book, although neither its title nor an author's name contains it; a
year of more than 32 bits and a text with a NUL are not answered. -/
theorem percent_finds_another :
    nights ∈ baseRows asciiCollation 1 hundredPercent nightsCatalog ∧
      ¬ asciiCollation.Contains nights.title "100%" ∧
      ¬ hundredPercent.MeanLiterally asciiCollation ∧
      ¬ sinceTooFar.MeanLiterally asciiCollation ∧ ¬ authorNul.MeanLiterally asciiCollation := by
  have found : nights ∈ baseRows asciiCollation 1 hundredPercent nightsCatalog := by decide +kernel
  have notContained : ¬ asciiCollation.Contains nights.title "100%" := by
    unfold Collation.Contains
    decide +kernel
  have refused (filters : BookFilters)
      (unfit : ¬ (filterParameters filters).all Parameter.fits) :
      ¬ filters.MeanLiterally asciiCollation := fun mean => by
    obtain ⟨_, _, _, answered⟩ := mean .empty 1
    exact unfit (List.all_eq_true.mpr
      (fits_filters.mpr (filtersFit_of_runOn (answered .first reachable_first))))
  refine ⟨found, notContained, fun mean => ?_, refused _ (by decide), refused _ (by decide)⟩
  let db : Database := { Database.empty with catalog := nightsCatalog }
  have meets := @BookFilters.MeanLiterally.describes_only _ _ nights mean db 1 rfl found
  rcases meets.q "100%" rfl (by decide) with inTitle | ⟨l, mem, _⟩
  · exact notContained inTitle
  · cases mem

end TenantLibrary.Books
