import TenantLibrary.Api.Endpoints
import TenantLibrary.Books.Filters
import TenantLibrary.ReadingLists.Bindings
import TenantLibrary.Tenants.Creation

/-!
Whether a validated request fits the storage.

The schemas and the columns are declared apart, and some bounds of the columns are checked
by no schema: the identifiers of a book reference, the name and the slug of a tenant, the
years of a filter and the number of a page. `representable_iff` says for which requests
every value they make the service bind is representable.
-/

namespace TenantLibrary.Api

open TenantLibrary.Lib TenantLibrary.OpenLibrary TenantLibrary.Store TenantLibrary.Ingestion
  TenantLibrary.Books TenantLibrary.ReadingLists TenantLibrary.JobQueue

open TenantLibrary.Tenants (Tenant TenantTable TenantCreate)

/-! ### Requests -/

/-- `ReadingListSubmission` with the bounds and the pattern of its fields. -/
structure ReadingListSubmission extends Submission where
  patronName_length : 1 ≤ patronName.toList.length ∧ patronName.toList.length ≤ 255
  email_pattern : acceptsEmail email

/-- A validated request below `/tenants/{tenant_slug}`. -/
inductive TenantRequest where
  | listBooks (filters : BookFilters) (params : PageParams)
  | getBook (bookId : Uuid)
  | triggerIngestion (body : IngestionBody)
  | listJobs (params : PageParams)
  | getJob (jobId : Uuid)
  | listActivityLog (params : PageParams)
  | submitReadingList (submission : ReadingListSubmission)
  | listReadingLists (params : PageParams)
  | getReadingList (readingListId : Uuid)

/-- A validated request. -/
inductive ApiRequest where
  | createTenant (body : TenantCreate)
  | listTenants
  | ofTenant (tenantSlug : String) (request : TenantRequest)

/-! ### What a request meets -/

/-- What a request meets: tables whose columns hold what fits them, answers of Open Library
with keys that fit, and a hash whose digests fit. -/
structure Surroundings where
  tenants : TenantTable
  slugs : ∀ tenant ∈ tenants.rows, fitsColumn 100 tenant.slug
  db : Database
  books : ∀ b ∈ db.catalog.books.rows, fitsColumn 50 b.olWorkKey
  hashing : Hashing
  digests : ∀ text, fitsColumn 128 (hashing.hmac text)
  answers : Nat → ReferenceAnswers
  keys : ∀ i workKey, (answers i).isbn = .ok workKey → workKey.all (fitsColumn 50)
  draws : SubmitDraws

/-- `get_current_tenant`. -/
def Surroundings.currentTenant (s : Surroundings) (tenantSlug : String) : Option Tenant :=
  s.tenants.rows.find? (·.slug = tenantSlug)

/-! ### The values bound -/

def statusText : Status → String
  | .queued => "queued"
  | .running => "running"
  | .completed => "completed"
  | .failed => "failed"

/-- What an `INSERT` of a job binds. -/
def jobParameters (job : IngestionJob) : List Parameter :=
  [.varchar 20 (queryTypeText job.queryType), .varchar 500 job.queryValue, .integer job.limit,
    .varchar 20 (statusText job.status)]

/-- What an `INSERT` of a log binds. -/
def logParameters (log : IngestionLog) : List Parameter :=
  [.varchar 20 (queryTypeText log.queryType), .varchar 500 log.queryValue,
    .integer log.worksFetched, .integer log.worksStored, .integer log.worksFailed,
    .varchar 20 (statusText log.status)]

/-- What `trigger_ingestion` binds, and the log that the task it enqueues begins with. -/
def ingestionParameters (body : IngestionBody) (tenantId jobId logId : Uuid) : List Parameter :=
  jobParameters (body.job tenantId jobId) ++
    logParameters
      (IngestRequest.log ⟨tenantId, body.queryType, body.queryValue, some jobId, logId⟩)

/-- What `create_tenant` binds: the texts it looks for, and the row when it finds none. -/
def creationParameters (t : TenantTable) (body : TenantCreate) : List Parameter :=
  [.text body.slug, .text body.name] ++
    if Tenants.existing t body = [] then [.varchar 255 body.name, .varchar 100 body.slug] else []

/-- What the handler of a tenant's request binds, beside identifiers. -/
def TenantRequest.parameters (s : Surroundings) (tenantId : Uuid) : TenantRequest → List Parameter
  | .listBooks filters params =>
      -- the count, and the page
      filterParameters filters ++ (filterParameters filters ++ params.parameters)
  | .getBook _ => []
  | .triggerIngestion body => ingestionParameters body tenantId 0 0
  | .listJobs params => params.parameters
  | .getJob _ => []
  | .listActivityLog params => params.parameters
  | .submitReadingList submission =>
      submission.toSubmission.parameters s.hashing tenantId s.draws s.answers s.db
  | .listReadingLists params => params.parameters
  | .getReadingList _ => []

/-- What a request makes the service bind. -/
def ApiRequest.parameters (s : Surroundings) : ApiRequest → List Parameter
  | .createTenant body => creationParameters s.tenants body
  | .listTenants => []
  | .ofTenant tenantSlug request =>
      .text tenantSlug ::
        match s.currentTenant tenantSlug with
        | none => []
        | some tenant => request.parameters s tenant.id

/-- Whatever the request meets, every value it makes the service bind is representable. -/
def ApiRequest.Representable (request : ApiRequest) : Prop :=
  ∀ s, ∀ parameter ∈ request.parameters s, parameter.fits

/-! ### The requests that fit -/

def TenantRequest.Fits : TenantRequest → Prop
  | .listBooks filters params => filtersFit filters ∧ params.Reachable
  | .triggerIngestion body => noNul body.queryValue
  | .listJobs params => params.Reachable
  | .listActivityLog params => params.Reachable
  | .listReadingLists params => params.Reachable
  | .submitReadingList submission => submission.toSubmission.Storable
  | .getBook _ => True
  | .getJob _ => True
  | .getReadingList _ => True

/-- No tenant has a slug of more than 100 characters, so that nothing more is bound. -/
def ApiRequest.Fits : ApiRequest → Prop
  | .createTenant body => fitsColumn 255 body.name ∧ body.slug.toList.length ≤ 100
  | .listTenants => True
  | .ofTenant tenantSlug request =>
      noNul tenantSlug ∧ (tenantSlug.toList.length ≤ 100 → request.Fits)

/-! ### The values one by one -/

theorem fits_ingestion {body : IngestionBody} {tenantId jobId logId : Uuid} :
    (∀ parameter ∈ ingestionParameters body tenantId jobId logId, parameter.fits) ↔
      noNul body.queryValue := by
  have query : fitsColumn 500 body.queryValue ↔ noNul body.queryValue := by
    rw [fitsColumn_iff, noNul_iff, and_iff_right body.value_length.2]
  have kind : fitsColumn 20 (queryTypeText body.queryType) := by
    cases body.queryType <;> decide
  have limit : fitsBits 32 body.limit :=
    fitsBits_natCast.mpr (body.limit_range.2.trans_lt (by omega))
  have queued : fitsColumn 20 (statusText .queued) := by decide
  have running : fitsColumn 20 (statusText .running) := by decide
  have zero : fitsBits 32 0 := by decide
  simp [ingestionParameters, jobParameters, logParameters, IngestionBody.job, newJob,
    IngestRequest.log, Parameter.fits, query, kind, limit, queued, running, zero]

/-! ### Every request -/

/-- What a request that fits binds is representable. -/
theorem TenantRequest.fits_parameters {request : TenantRequest} (fits : request.Fits)
    (s : Surroundings) (tenantId : Uuid) :
    ∀ parameter ∈ request.parameters s tenantId, parameter.fits := by
  cases request with
  | listBooks filters params =>
      have filter := fits_filters.mpr fits.1
      exact List.forall_mem_append.mpr ⟨filter,
        List.forall_mem_append.mpr ⟨filter, fits_page.mpr fits.2⟩⟩
  | triggerIngestion body => exact fits_ingestion.mpr fits
  | submitReadingList submission =>
      exact fits_of_storable submission.email_pattern submission.patronName_length.2 s.digests
        s.books s.keys fits
  | listJobs params => exact fits_page.mpr fits
  | listActivityLog params => exact fits_page.mpr fits
  | listReadingLists params => exact fits_page.mpr fits
  | getBook _ => exact nofun
  | getJob _ => exact nofun
  | getReadingList _ => exact nofun

/-- Empty tables but for the tenants, and Open Library unreachable. -/
def quiet (tenants : TenantTable) (slugs : ∀ tenant ∈ tenants.rows, fitsColumn 100 tenant.slug) :
    Surroundings where
  tenants := tenants
  slugs := slugs
  db := .empty
  books := nofun
  hashing := ⟨id, fun _ => ""⟩
  digests := fun _ => show fitsColumn 128 "" by decide
  answers := fun _ => unreachable
  keys := nofun
  draws := ⟨0, id⟩

/-- A request whose parameters are representable there fits. -/
theorem TenantRequest.fits_of_quiet {request : TenantRequest} {tenants : TenantTable}
    {slugs : ∀ tenant ∈ tenants.rows, fitsColumn 100 tenant.slug} {tenantId : Uuid}
    (fits : ∀ parameter ∈ request.parameters (quiet tenants slugs) tenantId, parameter.fits) :
    request.Fits := by
  cases request with
  | listBooks filters params =>
      obtain ⟨filter, rest⟩ := List.forall_mem_append.mp fits
      exact ⟨fits_filters.mp filter, fits_page.mp (List.forall_mem_append.mp rest).2⟩
  | triggerIngestion body => exact fits_ingestion.mp fits
  | submitReadingList submission =>
      exact storable_of_fits submission.email_pattern submission.patronName_length.2 fits
  | listJobs params => exact fits_page.mp fits
  | listActivityLog params => exact fits_page.mp fits
  | listReadingLists params => exact fits_page.mp fits
  | getBook _ => trivial
  | getJob _ => trivial
  | getReadingList _ => trivial

theorem fits_pair {first second : Parameter} :
    (∀ parameter ∈ [first, second], parameter.fits) ↔ first.fits ∧ second.fits := by
  simp

theorem creation_representable_iff {body : TenantCreate} :
    (ApiRequest.createTenant body).Representable ↔ (ApiRequest.createTenant body).Fits := by
  have slugIsText : noNul body.slug := noNul_iff.mpr (Tenants.slug_noNul body)
  constructor
  · intro representable
    have bound := representable (quiet .empty nofun)
    obtain ⟨_, inserted⟩ := List.forall_mem_append.mp bound
    obtain ⟨name, slug⟩ := fits_pair.mp inserted
    exact ⟨name, (fitsColumn_iff.mp slug).1⟩
  · rintro ⟨name, slug⟩ s
    have nameIsText : noNul body.name := fits_text_of_fitsColumn name
    refine List.forall_mem_append.mpr ⟨fits_pair.mpr ⟨slugIsText, nameIsText⟩, ?_⟩
    split
    · exact fits_pair.mpr ⟨name, fitsColumn_iff.mpr ⟨slug, Tenants.slug_noNul body⟩⟩
    · exact nofun

theorem tenantRequest_representable_iff {tenantSlug : String} {request : TenantRequest} :
    (ApiRequest.ofTenant tenantSlug request).Representable ↔
      (ApiRequest.ofTenant tenantSlug request).Fits := by
  constructor
  · intro representable
    have slugIsText := (List.forall_mem_cons.mp (representable (quiet .empty nofun))).1
    refine ⟨slugIsText, fun short => ?_⟩
    -- the tenant with the slug, alone
    have tenantFits : fitsColumn 100 tenantSlug :=
      fitsColumn_iff.mpr ⟨short, noNul_iff.mp slugIsText⟩
    let tenants : TenantTable := ⟨[⟨0, "", tenantSlug⟩], List.pairwise_singleton _ _⟩
    have bound := representable (quiet tenants (List.forall_mem_singleton.mpr tenantFits))
    have current : (quiet tenants (List.forall_mem_singleton.mpr tenantFits)).currentTenant
        tenantSlug = some ⟨0, "", tenantSlug⟩ := List.find?_cons_of_pos (decide_eq_true rfl)
    rw [ApiRequest.parameters, current] at bound
    exact TenantRequest.fits_of_quiet (List.forall_mem_cons.mp bound).2
  · rintro ⟨slugIsText, fits⟩ s
    refine List.forall_mem_cons.mpr ⟨slugIsText, ?_⟩
    split
    case h_1 => exact nofun
    case h_2 tenant found =>
      have found : s.tenants.rows.find? (·.slug = tenantSlug) = some tenant := found
      have slugIs : tenant.slug = tenantSlug := by simpa using List.find?_some found
      have tenantFits := s.slugs tenant (List.mem_of_find?_eq_some found)
      rw [slugIs] at tenantFits
      exact TenantRequest.fits_parameters (fits (fitsColumn_iff.mp tenantFits).1) s tenant.id

/-- Every value a request makes the service bind is representable exactly when the request
fits. -/
theorem representable_iff (request : ApiRequest) : request.Representable ↔ request.Fits := by
  cases request with
  | createTenant body => exact creation_representable_iff
  | listTenants => exact iff_of_true (fun _ => nofun) trivial
  | ofTenant tenantSlug request => exact tenantRequest_representable_iff

/-- Bob gives an ISBN as it is printed, with its label. -/
def labelledIsbn : ReadingListSubmission where
  patronName := "Bob"
  email := "bob@example.com"
  books := [⟨none, some "ISBN 978-0-14-032872-1", .inr (by decide)⟩]
  nonempty := by simp
  patronName_length := by decide
  email_pattern := by decide +kernel

/-- A page far beyond every row, with the size a request has by default. -/
def farPage : PageParams :=
  { PageParams.first with page := 2 ^ 63 + 1, page_pos := Nat.succ_pos _ }

/-- The ISBN and the offset are not representable, and the submission ends in an error of
the database. -/
theorem unchecked_bounds_overflow :
    ¬ (ApiRequest.ofTenant "north" (.submitReadingList labelledIsbn)).Representable ∧
      ¬ (ApiRequest.ofTenant "north" (.listJobs farPage)).Representable ∧
      ((submit plainHashing 1 labelledIsbn.toSubmission bobsDraws fun _ => unreachable).runOn
        (.opened .empty)).1 =
        .error (.database (.dataError "value too long for type character varying(20)")) := by
  refine ⟨?_, ?_, by decide +kernel⟩
  · rw [tenantRequest_representable_iff]
    rintro ⟨_, fits⟩
    rcases fits (by decide) with dotted | ⟨_, _, references⟩
    · exact absurd dotted (by decide +kernel)
    · exact absurd (references _ List.mem_cons_self).2 (by decide)
  · rw [tenantRequest_representable_iff]
    rintro ⟨_, fits⟩
    have reachable : farPage.page ≤ (2 ^ 63 - 1) / farPage.pageSize + 1 := fits (by decide)
    simp [farPage, PageParams.first] at reachable

end TenantLibrary.Api
