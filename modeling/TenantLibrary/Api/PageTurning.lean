import TenantLibrary.Api.Endpoints
import TenantLibrary.Ingestion.Reingestion
import TenantLibrary.Lib.Paging

/-!
Turning the pages of a listing.

The database may order rows that tie on the `ORDER BY` differently for every page.
`listIn` is a listing under such an order; the listings of books, jobs, log entries and
reading lists are listings under one of the orders allowed. `pagination_partitions_iff`
says that the pages of a listing hold each row once exactly when no tie straddles two
pages and the database takes the offsets; `equal_titles_repeat` is a catalog with two books
of one title, and a page too far.
-/

namespace TenantLibrary.Api

open TenantLibrary.Lib TenantLibrary.OpenLibrary TenantLibrary.Store TenantLibrary.Ingestion
  TenantLibrary.Books

/-! ### Listings under an order -/

/-- A listing of rows that the database returns in some order: a count and a page. Both
queries bind what selects the rows. -/
def listIn {α β : Type} (binds : List Parameter) (params : PageParams) (rows : Database → List α)
    (order : List α → List α) (out : Database → α → β) : IngestM (PaginatedResponse β) := do
  let total ← selectBinding binds fun db => (rows db).length
  let items ← selectBinding (binds ++ params.parameters) fun db =>
    (params.slice (order (rows db))).map (out db)
  return params.respond total items

/-- The rows of `list_books`. -/
def tenantBooks (collation : Collation) (tenantId : Uuid) (filters : BookFilters) (db : Database) :
    List Book :=
  baseRows collation tenantId filters db.catalog

def summaries (db : Database) (b : Book) : BookSummary := bookSummary db.catalog b

/-- `order_by(Book.title)`. -/
def byTitle (collation : Collation) (a b : Book) : Bool := collation.le a.title b.title

/-- `order_by(created_at.desc())`. -/
def newestFirst {α : Type} (createdAt : α → Nat) (a b : α) : Bool := createdAt b ≤ createdAt a

theorem listBooks_eq (collation : Collation) (tenantId : Uuid) (filters : BookFilters)
    (params : PageParams) :
    listBooks collation tenantId filters params =
      listIn (filterParameters filters) params (tenantBooks collation tenantId filters)
        (fun rows => rows.mergeSort (byTitle collation)) summaries :=
  rfl

/-- Beside identifiers, a count of a tenant's rows binds nothing. -/
theorem listNewestFirst_eq {α β : Type} (params : PageParams) (rows : Database → List α)
    (out : Database → α → β) :
    listNewestFirst params rows out = listIn [] params rows List.reverse out := by
  simp [listNewestFirst, listIn, selectBinding]

variable {α β : Type} {binds : List Parameter} {rows : Database → List α}
  {out : Database → α → β} {db : Database}

/-- A listing is answered when the database takes all that its queries bind. -/
theorem runOn_listIn (params : PageParams) (order : List α → List α) :
    (listIn binds params rows order out).runOn (.opened db) =
      (if binds.all Parameter.fits && params.parameters.all Parameter.fits then
        .ok (params.respond (rows db).length ((params.slice (order (rows db))).map (out db)))
      else .error (.database refusedParameter), .opened db) := by
  rw [listIn, SessionM.runOn_bind, runOn_selectBinding]
  cases bound : binds.all Parameter.fits with
  | false => rfl
  | true =>
      rw [if_pos rfl]
      dsimp only
      rw [SessionM.runOn_bind, runOn_selectBinding, List.all_append, bound]
      cases params.parameters.all Parameter.fits <;> rfl

theorem runOn_listIn_of_fits {params : PageParams} {order : List α → List α}
    (bound : ∀ parameter ∈ binds, parameter.fits) (reachable : params.Reachable) :
    (listIn binds params rows order out).runOn (.opened db) =
      (.ok (params.respond (rows db).length ((params.slice (order (rows db))).map (out db))),
        .opened db) := by
  rw [runOn_listIn, List.all_eq_true.mpr bound, List.all_eq_true.mpr (fits_page.mpr reachable)]
  rfl

theorem fits_of_runOn_listIn {params : PageParams} {order : List α → List α}
    {response : PaginatedResponse β}
    (answered : (listIn binds params rows order out).runOn (.opened db) =
      (.ok response, .opened db)) :
    (∀ parameter ∈ binds, parameter.fits) ∧ params.Reachable := by
  rw [runOn_listIn] at answered
  split at answered
  case isTrue fits =>
    obtain ⟨bound, page⟩ := Bool.and_eq_true_iff.mp fits
    exact ⟨List.all_eq_true.mp bound, fits_page.mp (List.all_eq_true.mp page)⟩
  case isFalse => cases (Prod.mk.inj answered).1

/-! ### What is to hold -/

/-- The parameters of another page of the same size; pages are counted from 0 here. -/
def PageParams.turnTo (size : PageParams) (k : Nat) : PageParams :=
  { size with page := k + 1, page_pos := by omega }

/-- The pages that are asked for: those up to `far`, and those that have rows. -/
def Asked (size : PageParams) (far total k : Nat) : Prop :=
  k ≤ far ∨ k < pageCount size.pageSize total

/-- Whatever order the database takes for each page, the pages asked for are answered, they
hold each row once, those beyond the last are empty, and the total is the number of rows. -/
def Partitions (le : α → α → Bool) (binds : List Parameter) (rows : Database → List α)
    (out : Database → α → β) (size : PageParams) (far : Nat) (db : Database) : Prop :=
  ∀ order : Nat → List α → List α, (∀ k, Orders le (rows db) (order k (rows db))) →
    ∃ response : Nat → PaginatedResponse β,
      (∀ k, Asked size far (rows db).length k →
        (listIn binds (size.turnTo k) rows (order k) out).runOn (.opened db) =
          (.ok (response k), .opened db)) ∧
      ((List.range (response 0).totalPages).flatMap fun k => (response k).items).Perm
        ((rows db).map (out db)) ∧
      (∀ k ≤ far, (response k).totalPages ≤ k → (response k).items = []) ∧
      ∀ k, Asked size far (rows db).length k → (response k).total = (rows db).length

/-- The database takes all that the pages asked for bind. -/
def Bindable (binds : List Parameter) (size : PageParams) (far total : Nat) : Prop :=
  (∀ parameter ∈ binds, parameter.fits) ∧
    ∀ k, Asked size far total k → (size.turnTo k).Reachable

theorem totalPages_eq (size : PageParams) (k total : Nat) :
    (size.turnTo k).totalPages total = pageCount size.pageSize total := by
  have positive := size.pageSize_pos
  unfold PageParams.totalPages
  split
  · rfl
  · obtain rfl : total = 0 := by omega
    exact (Nat.div_eq_of_lt (by omega)).symm

theorem asked_of_mem_pages {size : PageParams} {far total k : Nat}
    (mem : k ∈ List.range (pageCount size.pageSize total)) : Asked size far total k :=
  .inr (List.mem_range.mp mem)

/-- The pages of a listing partition its rows exactly when ties stay together and the database
takes what the pages asked for bind. -/
theorem partitions_iff {le : α → α → Bool} (order : TotalPreorder le) (size : PageParams)
    (far : Nat) (distinct : ((rows db).map (out db)).Nodup) :
    Partitions le binds rows out size far db ↔
      TiesTogether le size.pageSize (rows db) ∧ Bindable binds size far (rows db).length := by
  rw [← perm_pages_iff order size.pageSize_pos distinct]
  let response (ordered : Nat → List α) (k : Nat) : PaginatedResponse β :=
    (size.turnTo k).respond (rows db).length ((page size.pageSize k (ordered k)).map (out db))
  have pages (ordered : Nat → List α) : (response ordered 0).totalPages =
      pageCount size.pageSize (rows db).length := totalPages_eq size 0 _
  have first : Asked size far (rows db).length 0 := .inl (Nat.zero_le far)
  constructor
  · intro partitions
    have bindable : Bindable binds size far (rows db).length := by
      obtain ⟨answered, returned, _⟩ := partitions (fun _ rows => rows.mergeSort le)
        fun _ => orders_mergeSort order (rows db)
      exact ⟨(fits_of_runOn_listIn (returned 0 first)).1,
        fun k asked => (fits_of_runOn_listIn (returned k asked)).2⟩
    refine ⟨fun ordered orders => ?_, bindable⟩
    obtain ⟨answered, returned, together, _⟩ := partitions (fun k _ => ordered k) orders
    have same (k : Nat) (asked : Asked size far (rows db).length k) :
        answered k = response ordered k := by
      have computed : (listIn binds (size.turnTo k) rows (fun _ => ordered k) out).runOn
          (.opened db) = (.ok (response ordered k), .opened db) :=
        runOn_listIn_of_fits bindable.1 (bindable.2 k asked)
      exact Except.ok.inj (Prod.mk.inj ((returned k asked).symm.trans computed)).1
    rw [same 0 first, pages] at together
    refine (List.Perm.of_eq ?_).trans together
    apply List.flatMap_congr
    intro k mem
    rw [same k (asked_of_mem_pages mem)]
    rfl
  · rintro ⟨together, bound, reachable⟩ order orders
    refine ⟨response fun k => order k (rows db),
      fun k asked => runOn_listIn_of_fits bound (reachable k asked), ?_, fun k _ beyond => ?_,
      fun _ _ => rfl⟩
    · rw [pages fun k => order k (rows db)]
      exact together _ orders
    · have beyond : pageCount size.pageSize (order k (rows db)).length ≤ k := by
        rw [(orders k).1.length_eq, ← totalPages_eq size k]
        exact beyond
      exact congrArg (List.map (out db)) (page_beyond size.pageSize_pos beyond)

/-! ### The four listings -/

/-- Rows that are different in the table are different in the listing. -/
theorem nodup_listed {Row : Type} {Clash : Row → Row → Prop} (t : Table Row Clash)
    (keep : Row → Bool) {out : Row → β} (separates : ∀ a b, out a = out b → Clash a b) :
    ((t.rows.filter keep).map out).Nodup := by
  refine List.pairwise_map.mpr ((t.distinct.filter keep).imp ?_)
  exact fun distinct same => distinct (separates _ _ same)

theorem totalPreorder_byTitle {collation : Collation} (order : TotalPreorder collation.le) :
    TotalPreorder (byTitle collation) where
  total a b := order.total a.title b.title
  trans a b c := order.trans a.title b.title c.title

theorem totalPreorder_newestFirst (createdAt : α → Nat) : TotalPreorder (newestFirst createdAt) where
  total a b := by
    simp only [newestFirst, Bool.or_eq_true, decide_eq_true_eq]
    omega
  trans a b c := by
    simp only [newestFirst, decide_eq_true_eq]
    omega

/-- The pages of each listing partition its rows exactly when no tie of the `ORDER BY`
straddles two pages and the database takes the offset of every page asked for and, for books,
what the filters bind. -/
theorem pagination_partitions_iff {collation : Collation} (order : TotalPreorder collation.le)
    (createdAt : Uuid → Nat) (tenantId : Uuid) (filters : BookFilters) (size : PageParams)
    (far : Nat) (db : Database) :
    (Partitions (byTitle collation) (filterParameters filters)
        (tenantBooks collation tenantId filters) summaries size far db ↔
      TiesTogether (byTitle collation) size.pageSize (tenantBooks collation tenantId filters db) ∧
        Bindable (filterParameters filters) size far
          (tenantBooks collation tenantId filters db).length) ∧
    (Partitions (newestFirst fun l => createdAt l.id) [] (tenantLists tenantId) readingListOut size
        far db ↔
      TiesTogether (newestFirst fun l => createdAt l.id) size.pageSize (tenantLists tenantId db) ∧
        Bindable [] size far (tenantLists tenantId db).length) ∧
    (Partitions (newestFirst fun j => createdAt j.id) [] (tenantJobs tenantId) (fun _ => jobDetail)
        size far db ↔
      TiesTogether (newestFirst fun j => createdAt j.id) size.pageSize (tenantJobs tenantId db) ∧
        Bindable [] size far (tenantJobs tenantId db).length) ∧
    (Partitions (newestFirst fun l => createdAt l.id) [] (tenantLogs tenantId) (fun _ => logEntry)
        size far db ↔
      TiesTogether (newestFirst fun l => createdAt l.id) size.pageSize (tenantLogs tenantId db) ∧
        Bindable [] size far (tenantLogs tenantId db).length) :=
  ⟨partitions_iff (totalPreorder_byTitle order) size far
      (nodup_listed db.catalog.books _ fun _ _ same => .inl (congrArg BookSummary.id same)),
    partitions_iff (totalPreorder_newestFirst _) size far
      (nodup_listed db.readingLists _ fun _ _ same => .inl (congrArg ReadingListOut.id same)),
    partitions_iff (totalPreorder_newestFirst _) size far
      (nodup_listed db.jobs _ fun _ _ same => congrArg IngestionJobDetail.id same),
    partitions_iff (totalPreorder_newestFirst _) size far
      (nodup_listed db.logs _ fun _ _ same => congrArg IngestionLogEntry.id same)⟩

/-! ### Two books -/

/-- No case is folded, and texts are in the order of their characters. -/
def plainCollation : Collation := ⟨id, fun a b => a ≤ b⟩

theorem totalPreorder_plain : TotalPreorder plainCollation.le where
  total a b := by simpa [plainCollation] using le_total a b
  trans a b c := by simpa [plainCollation] using le_trans

def noFilters : BookFilters := ⟨none, none, none, none, none⟩

theorem one_le_hundred : 1 ≤ 100 := by omega

/-- Pages of one row. -/
def singly : PageParams := ⟨1, 1, Nat.one_pos, Nat.one_pos, one_le_hundred⟩

/-- A catalog with two ingested books of these titles. -/
def twoBooks (first second : String) : Database :=
  ingested [plainWork "OL1W" (some first) 10, plainWork "OL2W" (some second) 20] sampleRequest .empty

theorem bindable_singly {far total : Nat} (few : far < 2 ^ 63) (rows : total ≤ 2 ^ 63) :
    Bindable [] singly far total := by
  refine ⟨nofun, fun k asked => PageParams.reachable_iff.mpr ?_⟩
  have offset : (singly.turnTo k).offset = k := Nat.mul_one k
  have pages : pageCount singly.pageSize total = total := Nat.div_one total
  rw [offset]
  rcases asked with upTo | inside
  · exact upTo.trans_lt few
  · rw [pages] at inside
    exact inside.trans_le rows

theorem different_titles_partition :
    Partitions (byTitle plainCollation) (filterParameters noFilters)
      (tenantBooks plainCollation 1 noFilters) summaries singly 100 (twoBooks "One" "Two") := by
  refine (pagination_partitions_iff totalPreorder_plain (fun _ => 0) 1 noFilters singly 100
    _).1.mpr ⟨?_, bindable_singly (by decide) (by decide +kernel)⟩
  unfold TiesTogether
  decide +kernel

/-- The first page in one order and the second in the other show the same book. And with
different titles, the page whose offset is 2^63 is not answered. -/
theorem equal_titles_repeat :
    ¬ Partitions (byTitle plainCollation) (filterParameters noFilters)
        (tenantBooks plainCollation 1 noFilters) summaries singly 1 (twoBooks "One" "One") ∧
      ¬ Partitions (byTitle plainCollation) (filterParameters noFilters)
        (tenantBooks plainCollation 1 noFilters) summaries singly (2 ^ 63)
        (twoBooks "One" "Two") := by
  have iff (far : Nat) (db : Database) := @partitions_iff _ _ (filterParameters noFilters)
    (tenantBooks plainCollation 1 noFilters) summaries db _
    (totalPreorder_byTitle totalPreorder_plain) singly far
    (nodup_listed _ _ fun _ _ same => .inl (congrArg BookSummary.id same))
  rw [iff, iff]
  constructor
  · rintro ⟨together, _⟩
    revert together
    unfold TiesTogether
    decide +kernel
  · rintro ⟨_, _, reachable⟩
    have taken := PageParams.reachable_iff.mp (reachable _ (.inl le_rfl))
    exact absurd taken (by decide)

end TenantLibrary.Api
