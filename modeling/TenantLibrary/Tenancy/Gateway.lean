import TenantLibrary.Lib.Purging
import TenantLibrary.RateLimit.Quota
import TenantLibrary.Store.Parameters
import TenantLibrary.Tenancy.Noninterference
import TenantLibrary.Tenants.Slugs

/-!
The whole path of a request: the rate limit, the tenant, the endpoint (`app/main.py`,
`app/middleware/rate_limit.py`, `app/api/deps.py`).

The middleware counts a request by the slug it finds in the URL, and `get_current_tenant` looks
the tenant up by the slug the router finds in the path. The URL is put together from the path
and split again, which drops or escapes some characters; `url`, which gives `request.url.path`,
is a parameter here, and the requests are those whose slugs it keeps. A request over the limit
does not reach its endpoint. What requests with one slug are answered, refusals and headers
included, does not depend on the requests with others (`answers_independent`). The table of
tenants stays as it is here; the worker's attempts are not counted.
-/

namespace TenantLibrary.Tenancy

open TenantLibrary.Lib TenantLibrary.Store TenantLibrary.Api TenantLibrary.Tenants
  TenantLibrary.RateLimit

/-! ### Requests -/

/-- How a request comes in: what follows the slug in its path, the times at which the clock is
read and Redis executes the pipeline, and whether Redis answers. -/
structure Route where
  tail : String
  readAt : Nat
  executedAt : Nat
  rejectedAt : Nat
  available : Bool
deriving DecidableEq, Repr

/-- A request below `/tenants/{tenant_slug}`, or, without a route, an attempt of the worker at a
task of the tenant with the slug. -/
structure Arrival where
  slug : String
  /-- a path parameter is one segment -/
  segment : '/' ∉ slug.toList
  route : Option Route
  request : Api.Request

/-- The request as the middleware sees it. -/
def Arrival.metered (url : String → String) (a : Arrival) (route : Route) : RateLimit.Request :=
  ⟨url (tenantPath a.slug route.tail), route.readAt, route.executedAt, route.rejectedAt⟩

/-- `get_current_tenant` up to its 404; the statement binds the slug. -/
def currentTenant (tenants : TenantTable) (tenantSlug : String) : Except DbError (Option Tenant) :=
  if (Parameter.text tenantSlug).fits then .ok (tenants.rows.find? (·.slug = tenantSlug))
  else .error refusedParameter

/-- The answer of an endpoint, or of `get_current_tenant`. -/
inductive Answer where
  | served (response : Response)
  | noTenant (detail : String)
  /-- `get_current_tenant` raised -/
  | failed (error : DbError)
deriving DecidableEq

/-- `dispatch` up to `call_next`; the clock is Redis's. -/
def meter (url : String → String) (limit : Int) (s : Counters.Clocked String) (a : Arrival) :
    Outcome × Counters.Clocked String :=
  match a.route with
  | none => (.handled none, s)
  | some route =>
      let (outcome, counters) := dispatch limit route.available s.counters (a.metered url route)
      (outcome, ⟨route.executedAt, counters⟩)

/-- A refused request is answered by the middleware. -/
def passes : Outcome → Bool
  | .handled _ => true
  | .tooMany .. => false

/-- `call_next`. -/
def endpoint (env : Environment) (tenants : TenantTable) (s : Service) (a : Arrival) :
    Answer × Service :=
  match currentTenant tenants a.slug with
  | .error error => (.failed error, s)
  | .ok none => (.noTenant s!"Tenant '{a.slug}' not found", s)
  | .ok (some tenant) =>
      let (response, after) := serve env s ⟨tenant.id, a.request⟩
      (.served response, after)

/-- The application. -/
def app (url : String → String) (limit : Int) (env : Environment) (tenants : TenantTable) :
    Counters.Clocked String × Service → Arrival →
      (Outcome × Option Answer) × Counters.Clocked String × Service :=
  behind (meter url limit) passes (endpoint env tenants)

/-! ### The limit -/

section Limit

variable {url : String → String} {limit : Int} {s s' : Counters.Clocked String} {a : Arrival}
  {slug : String}

/-- The middleware finds the slug of a path in its URL, or none. -/
def KeepsSlug (url : String → String) (slug : String) : Prop :=
  ∀ tail counted, tenantSlug (url (tenantPath slug tail)) = some counted → counted = slug

/-- The clock has not passed the request, and the URL keeps its slug. -/
def AdmitsMetering (url : String → String) (s : Counters.Clocked String) (a : Arrival) : Prop :=
  KeepsSlug url a.slug ∧ ∀ route ∈ a.route, s.now ≤ route.executedAt

/-- Where splitting the URL is all that changes it, a slug that loses nothing is kept. -/
theorem keepsSlug_urlPath (segment : '/' ∉ slug.toList)
    (plain : ∀ c ∈ slug.toList, ¬ removedFromUrl c) : KeepsSlug urlPath slug := by
  intro tail counted extracted
  have kept : slug.toList.filter (fun c => !removedFromUrl c) = slug.toList :=
    List.filter_eq_self.mpr fun c mem => by simpa using plain c mem
  obtain ⟨rest, whole, -, noSlash, matched⟩ := tenantSlug_eq_some.mp extracted
  obtain ⟨line, ending, rfl, -, -⟩ := matchesRest_iff.mp matched
  rw [urlPath_tenantPath, kept] at whole
  obtain ⟨slugs, -⟩ := (append_cons_inj segment noSlash).mp (List.append_cancel_left whole)
  exact String.toList_inj.mp slugs.symm

/-- Whether a request is counted does not depend on the counters. -/
theorem dispatch_cases (limit : Int) (available : Bool) (request : RateLimit.Request) :
    (∀ redis, dispatch limit available redis request = (.handled none, redis)) ∨
      ∃ slug, tenantSlug request.path = some slug ∧ ∀ redis,
        dispatch limit available redis request =
          let hit := redis.hit (60 * 1000) request.executedAt (redisKey slug request.minute)
          (verdict limit request hit.1, hit.2) := by
  cases isSlug : tenantSlug request.path with
  | none => exact .inl fun redis => by simp only [dispatch, isSlug]
  | some slug =>
      cases available with
      | false => exact .inl fun redis => by simp [dispatch, isSlug]
      | true => exact .inr ⟨slug, rfl, fun redis => by simp only [dispatch, isSlug, if_true]⟩

/-- The counters of a slug agree when time passes. -/
theorem agree_later {keys : String → Prop} {time : Nat} (agree : Counters.Agree keys s s')
    (later : s.now ≤ time) : Counters.Agree keys ⟨time, s.counters⟩ s' :=
  ⟨agree.order.trans later, fun key isKey after order =>
    agree.counters key isKey after (later.trans order)⟩

/-- The hit of a request that is counted. -/
theorem hits_metered (url : String → String) (a : Arrival) (route : Route) (slug : String)
    (later : s.now ≤ route.executedAt) :
    Counters.Hits (60 * 1000) s
      ⟨redisKey slug (a.metered url route).minute, route.executedAt,
        (s.counters.hit (60 * 1000) route.executedAt
          (redisKey slug (a.metered url route).minute)).1⟩
      ⟨route.executedAt, (s.counters.hit (60 * 1000) route.executedAt
        (redisKey slug (a.metered url route).minute)).2⟩ :=
  ⟨later, rfl, rfl⟩

/-- The counters of a slug depend on its own requests. -/
theorem purges_meter (url : String → String) (limit : Int) (slug : String) :
    Purges (meter url limit) (fun a => a.slug = slug) (AdmitsMetering url)
      (Counters.Agree (keysOf slug)) where
  own s s' a agree admits mine := by
    obtain ⟨plain, timely⟩ := admits
    have mine : a.slug = slug := of_decide_eq_true mine
    cases via : a.route with
    | none =>
        simp only [meter, via]
        exact ⟨trivial, agree⟩
    | some route =>
        have later := timely route via
        rcases dispatch_cases limit route.available (a.metered url route) with
          uncounted | ⟨counted, extracted, counts⟩
        · simp only [meter, via, uncounted]
          exact ⟨trivial, le_rfl, (agree_later agree later).counters⟩
        · rw [plain _ _ extracted, mine] at counts
          obtain ⟨⟨now, counters⟩, ⟨_, returned, clock⟩, next⟩ :=
            agree.hit ⟨_, rfl⟩ (hits_metered url a route slug later)
          obtain rfl : now = route.executedAt := clock
          have returned : s'.counters.hit (60 * 1000) (a.metered url route).executedAt
              (redisKey slug (a.metered url route).minute) = (_, counters) := returned
          simp only [meter, via, counts, returned]
          exact ⟨rfl, next⟩
  others s s' a agree admits mine := by
    obtain ⟨plain, timely⟩ := admits
    have other : a.slug ≠ slug := fun same => mine (decide_eq_true same)
    cases via : a.route with
    | none =>
        simp only [meter, via]
        exact agree
    | some route =>
        have later := timely route via
        rcases dispatch_cases limit route.available (a.metered url route) with
          uncounted | ⟨counted, extracted, counts⟩
        · simp only [meter, via, uncounted]
          exact agree_later agree later
        · rw [plain _ _ extracted] at counts
          simp only [meter, via, counts]
          refine agree.other ?_ (hits_metered url a route a.slug later)
          rintro ⟨minute, key⟩
          exact other (redisKey_inj.mp key).1

end Limit

/-! ### The tenant and its endpoint -/

section Endpoint

variable {owner : Uuid → Uuid} {env : Environment} {tenants : TenantTable}

/-- The tenant a slug leads to. -/
def resident (tenants : TenantTable) (slug : String) : Option Tenant :=
  match currentTenant tenants slug with
  | .ok tenant => tenant
  | .error _ => none

/-- The part of the service that requests with a slug are about. -/
def partOf (owner : Uuid → Uuid) (tenants : TenantTable) (slug : String) (s : Service) : Service :=
  match resident tenants slug with
  | some tenant => part owner tenant.id s
  | none => .empty

/-- The identifiers drawn for a request are its tenant's. -/
def AdmitsEndpoint (owner : Uuid → Uuid) (tenants : TenantTable) (a : Arrival) : Prop :=
  ∀ tenant ∈ resident tenants a.slug, DrawnForTenant owner ⟨tenant.id, a.request⟩

theorem currentTenant_of_resident {slug : String} {tenant : Tenant}
    (found : resident tenants slug = some tenant) : currentTenant tenants slug = .ok (some tenant) := by
  unfold resident at found
  split at found
  case h_1 answer is => rw [is, found]
  case h_2 => cases found

theorem resident_eq_some {slug : String} {tenant : Tenant}
    (found : resident tenants slug = some tenant) : tenant ∈ tenants.rows ∧ tenant.slug = slug := by
  have answered := currentTenant_of_resident found
  unfold currentTenant at answered
  split at answered
  case isTrue =>
    have first := Except.ok.inj answered
    exact ⟨List.mem_of_find?_eq_some first, by simpa using List.find?_some first⟩
  case isFalse => cases answered

/-- Without a tenant no endpoint runs. -/
theorem endpoint_of_none {a : Arrival} (missing : resident tenants a.slug = none) :
    ∃ answer, ∀ s, endpoint env tenants s a = (answer, s) := by
  unfold resident at missing
  unfold endpoint
  split at missing
  case h_1 is =>
    rw [is, missing]
    exact ⟨_, fun _ => rfl⟩
  case h_2 is =>
    rw [is]
    exact ⟨_, fun _ => rfl⟩

theorem endpoint_of_some {a : Arrival} {tenant : Tenant} (found : resident tenants a.slug = some tenant)
    (s : Service) : endpoint env tenants s a =
      (.served (serve env s ⟨tenant.id, a.request⟩).1, (serve env s ⟨tenant.id, a.request⟩).2) := by
  rw [endpoint, currentTenant_of_resident found]

theorem Tenant.Clash.symm {a b : Tenant} (clash : a.Clash b) : b.Clash a := by
  rcases clash with id | name | slug
  · exact .inl id.symm
  · exact .inr (.inl name.symm)
  · exact .inr (.inr slug.symm)

/-- Two slugs are two tenants. -/
theorem ids_of_slugs {slug slug' : String} {tenant tenant' : Tenant}
    (found : resident tenants slug = some tenant)
    (found' : resident tenants slug' = some tenant') (different : slug ≠ slug') :
    tenant.id ≠ tenant'.id := by
  obtain ⟨mem, rfl⟩ := resident_eq_some found
  obtain ⟨mem', rfl⟩ := resident_eq_some found'
  intro same
  exact different (congrArg Tenant.slug
    (tenants.eq_of_clash (fun _ _ => Tenant.Clash.symm) mem mem' (.inl same)))

/-- The parts that different slugs are about are separate. -/
theorem separates_endpoint (owner : Uuid → Uuid) (env : Environment) (tenants : TenantTable) :
    Separates (endpoint env tenants) Arrival.slug (partOf owner tenants) (Isolated owner)
      (AdmitsEndpoint owner tenants) where
  kept s a isolated admits := by
    cases found : resident tenants a.slug with
    | none =>
        obtain ⟨answer, same⟩ := @endpoint_of_none env tenants a found
        rw [same]
        exact isolated
    | some tenant =>
        rw [endpoint_of_some found]
        exact (separates owner env).kept s ⟨tenant.id, a.request⟩ isolated (admits tenant found)
  seen s a isolated admits := by
    cases found : resident tenants a.slug with
    | none =>
        obtain ⟨answer, same⟩ := @endpoint_of_none env tenants a found
        simp only [same, partOf, found]
    | some tenant =>
        have seen := (separates owner env).seen s ⟨tenant.id, a.request⟩ isolated
          (admits tenant found)
        simp only [endpoint_of_some found, partOf, found]
        rw [seen]
  others s a isolated admits other different := by
    cases found : resident tenants a.slug with
    | none =>
        obtain ⟨answer, same⟩ := @endpoint_of_none env tenants a found
        rw [same]
    | some tenant =>
        cases found' : resident tenants other with
        | none => simp only [partOf, found']
        | some tenant' =>
            simp only [endpoint_of_some found, partOf, found']
            exact (separates owner env).others s ⟨tenant.id, a.request⟩ isolated
              (admits tenant found) tenant'.id (ids_of_slugs found' found different)

end Endpoint

/-! ### Whole runs -/

section Runs

variable {url : String → String} {limit : Int} {env : Environment} {tenants : TenantTable}
  {owner owner' : Uuid → Uuid}
  {s : Counters.Clocked String × Service} {a : Arrival} {arrivals arrivals' : List Arrival}

/-- The times at which Redis executes the pipelines. -/
def executions (arrivals : List Arrival) : List Nat :=
  arrivals.filterMap fun a => a.route.map (·.executedAt)

/-- A run whose clock does not go back, with slugs that URLs keep, and with identifiers drawn
for their tenants. -/
structure Orderly (url : String → String) (owner : Uuid → Uuid) (tenants : TenantTable) (now : Nat)
    (arrivals : List Arrival) : Prop where
  clock : (now :: executions arrivals).Pairwise (· ≤ ·)
  plain : ∀ a ∈ arrivals, KeepsSlug url a.slug
  drawn : ∀ a ∈ arrivals, AdmitsEndpoint owner tenants a

theorem now_app (s : Counters.Clocked String × Service) (a : Arrival) :
    (app url limit env tenants s a).2.1 = (meter url limit s.1 a).2 := by
  unfold app behind
  dsimp only
  split
  · rfl
  · rfl

theorem Orderly.admitted (orderly : Orderly url owner tenants s.1.now arrivals) :
    AdmittedAlong (app url limit env tenants)
      (fun s a => AdmitsMetering url s.1 a ∧ AdmitsEndpoint owner tenants a) s arrivals := by
  induction arrivals generalizing s with
  | nil => trivial
  | cons a rest ih =>
      obtain ⟨clock, plain, drawn⟩ := orderly
      have isPlain := plain a List.mem_cons_self
      have isDrawn := drawn a List.mem_cons_self
      have plainRest := fun later mem => plain later (List.mem_cons_of_mem a mem)
      have drawnRest := fun later mem => drawn later (List.mem_cons_of_mem a mem)
      cases via : a.route with
      | none =>
          refine ⟨⟨⟨isPlain, fun route is => by simp [via] at is⟩, isDrawn⟩,
            ih ⟨?_, plainRest, drawnRest⟩⟩
          rw [now_app, meter, via]
          simpa [executions, via] using clock
      | some route =>
          rw [executions, List.filterMap_cons_some (by rw [via]; rfl)] at clock
          obtain ⟨later, sorted⟩ := List.pairwise_cons.mp clock
          refine ⟨⟨⟨isPlain, fun other is => ?_⟩, isDrawn⟩, ih ⟨?_, plainRest, drawnRest⟩⟩
          · obtain rfl := Option.some.inj (via.symm.trans is)
            exact later _ List.mem_cons_self
          · rw [now_app, meter, via]
            exact sorted

/-- A request that names, and draws, other identifiers. -/
def renameArrival (ρ : Equiv.Perm Uuid) (a : Arrival) : Arrival :=
  { a with request := renameRequest ρ a.request }

def renameAnswer (ρ : Equiv.Perm Uuid) : Answer → Answer
  | .served response => .served (renameResponse ρ response)
  | .noTenant detail => .noTenant detail
  | .failed error => .failed error

/-- What is answered under other names: the limit does not see them. -/
def renameOutcome (ρ : Equiv.Perm Uuid) (answered : Outcome × Option Answer) :
    Outcome × Option Answer :=
  (answered.1, answered.2.map (renameAnswer ρ))

theorem endpoint_rename (ρ : Equiv.Perm Uuid) (env : Environment) (tenants : TenantTable)
    (s : Service) (a : Arrival) :
    endpoint env tenants (renameService ρ s) (renameArrival ρ a) =
      (renameAnswer ρ (endpoint env tenants s a).1, renameService ρ (endpoint env tenants s a).2) := by
  have same : currentTenant tenants (renameArrival ρ a).slug = currentTenant tenants a.slug := rfl
  match answered : currentTenant tenants a.slug with
  | .error error => simp only [endpoint, same, answered, renameAnswer]
  | .ok none =>
      simp only [endpoint, same, answered]
      rfl
  | .ok (some tenant) =>
      have served := serve_rename ρ env s ⟨tenant.id, a.request⟩
      simp only [endpoint, same, answered]
      have response := congrArg Prod.fst served
      have after := congrArg Prod.snd served
      exact Prod.ext (congrArg Answer.served response) after

theorem meter_rename (ρ : Equiv.Perm Uuid) (url : String → String) (limit : Int)
    (s : Counters.Clocked String) (a : Arrival) :
    meter url limit s (renameArrival ρ a) = meter url limit s a := by
  simp only [meter, renameArrival, Arrival.metered]

theorem app_rename (ρ : Equiv.Perm Uuid) (url : String → String) (limit : Int)
    (env : Environment) (tenants : TenantTable)
    (s : Counters.Clocked String × Service) (a : Arrival) :
    app url limit env tenants (s.1, renameService ρ s.2) (renameArrival ρ a) =
      (renameOutcome ρ (app url limit env tenants s a).1, (app url limit env tenants s a).2.1,
        renameService ρ (app url limit env tenants s a).2.2) := by
  have served := endpoint_rename ρ env tenants s.2 a
  unfold app behind
  dsimp only
  rw [meter_rename, served]
  by_cases passed : passes (meter url limit s.1 a).1
  · rw [if_pos passed, if_pos passed]
    rfl
  · rw [if_neg passed, if_neg passed]
    rfl

/-- Nothing is renamed at the start where the tenant's part is left as it is. -/
theorem fixes_partOf {ρ : Equiv.Perm Uuid} {slug : String} {start : Service}
    (fixes : ∀ tenant ∈ resident tenants slug,
      renameService ρ (part owner tenant.id start) = part owner tenant.id start) :
    renameService ρ (partOf owner tenants slug start) = partOf owner tenants slug start := by
  cases found : resident tenants slug with
  | none =>
      simp only [partOf, found]
      exact Service.ext rfl fun _ => rfl
  | some tenant =>
      simp only [partOf, found]
      exact fixes tenant found

theorem partOf_congr {start : Service} (isolated : Isolated owner start)
    (isolated' : Isolated owner' start) (slug : String) :
    partOf owner tenants slug start = partOf owner' tenants slug start := by
  cases found : resident tenants slug with
  | none => simp only [partOf, found]
  | some tenant =>
      simp only [partOf, found]
      exact part_congr isolated isolated' tenant.id

/-- What requests with a slug are answered: what the application answers them alone, on the
tenant's part of the service. -/
theorem answers_alone (url : String → String) (limit : Int) (env : Environment) (slug : String)
    {clock : Counters.Clocked String} {start : Service} (isolated : Isolated owner start)
    (orderly : Orderly url owner tenants clock.now arrivals) :
    answers (app url limit env tenants) (fun a => a.slug = slug) (clock, start) arrivals =
      answers (app url limit env tenants) (fun a => a.slug = slug)
        (clock, partOf owner tenants slug start) (arrivals.filter fun a => a.slug = slug) := by
  have purges := @Purges.behind _ _ _ _ _ (meter url limit) passes (endpoint env tenants) _ _ _ _ _
    (purges_meter url limit slug) ((separates_endpoint owner env tenants).purges slug)
  exact purges.answers_filter ⟨.refl _ _, isolated, rfl⟩ (Orderly.admitted orderly)

/-- Two orderly runs of the application that agree on the requests with a slug, up to the
identifiers drawn for them, answer these the same up to the identifiers: with the same
refusals, the same rate limit headers and the same responses, whatever is requested with other
slugs, and however often. -/
theorem answers_independent (url : String → String) (limit : Int) (env : Environment) (tenants : TenantTable)
    {clock : Counters.Clocked String} {start : Service} (isolated : Isolated owner start)
    (isolated' : Isolated owner' start) (orderly : Orderly url owner tenants clock.now arrivals)
    (orderly' : Orderly url owner' tenants clock.now arrivals') (slug : String) (ρ : Equiv.Perm Uuid)
    (fixes : ∀ tenant ∈ resident tenants slug,
      renameService ρ (part owner tenant.id start) = part owner tenant.id start)
    (same : arrivals'.filter (fun a => a.slug = slug) =
      (arrivals.filter fun a => a.slug = slug).map (renameArrival ρ)) :
    answers (app url limit env tenants) (fun a => a.slug = slug) (clock, start) arrivals' =
      (answers (app url limit env tenants) (fun a => a.slug = slug) (clock, start) arrivals).map
        (renameOutcome ρ) := by
  have renamed := @answers_map _ _ _ (app url limit env tenants) (fun a => a.slug = slug)
    (fun s => (s.1, renameService ρ s.2)) (renameArrival ρ) (renameOutcome ρ)
    (app_rename ρ url limit env tenants) (fun _ => rfl) (clock, partOf owner tenants slug start)
    (arrivals.filter fun a => a.slug = slug)
  rw [fixes_partOf fixes] at renamed
  rw [answers_alone url limit env slug isolated orderly,
    answers_alone url limit env slug isolated' orderly', same, ← partOf_congr isolated isolated' slug]
  exact renamed

end Runs

/-! ### A tenant that floods the service -/

def acmeAndBolt : TenantTable :=
  ⟨[⟨1, "Acme", "acme"⟩, ⟨2, "Bolt", "bolt-2"⟩], by simp [Tenant.Clash]⟩

/-- `GET /api/v1/tenants/{slug}/books` at a time. -/
def listsBooks (slug : String) (segment : '/' ∉ slug.toList) (time : Nat) : Arrival where
  slug := slug
  segment := segment
  route := some ⟨"books", time, time, time, true⟩
  request := .listBooks ⟨none, none, none, none, none⟩ .first

theorem acme_segment : '/' ∉ "acme".toList := by decide

theorem bolt_segment : '/' ∉ "bolt-2".toList := by decide

def asAcme (time : Nat) : Arrival := listsBooks "acme" acme_segment time

def asBolt (time : Nat) : Arrival := listsBooks "bolt-2" bolt_segment time

theorem keepsSlug_acme : KeepsSlug urlPath "acme" :=
  keepsSlug_urlPath acme_segment (by simp [removedFromUrl])

theorem keepsSlug_bolt : KeepsSlug urlPath "bolt-2" :=
  keepsSlug_urlPath bolt_segment (by simp [removedFromUrl])

theorem orderly_lists {arrivals : List Arrival} (clock : (0 :: executions arrivals).Pairwise (· ≤ ·))
    (one : ∀ a ∈ arrivals, ∃ time, a = asAcme time ∨ a = asBolt time) :
    Orderly urlPath (fun _ => 0) acmeAndBolt 0 arrivals where
  clock := clock
  plain a mem := by
    obtain ⟨time, rfl | rfl⟩ := one a mem
    · exact keepsSlug_acme
    · exact keepsSlug_bolt
  drawn a mem tenant found := by
    obtain ⟨time, rfl | rfl⟩ := one a mem
    · trivial
    · trivial

def alone : List Arrival := [asAcme 10000, asAcme 30000]

def flooded : List Arrival :=
  [asBolt 5000, asAcme 10000, asBolt 20000, asBolt 25000, asAcme 30000]

/-- The answers to the first tenant, from an empty service, with a limit of 1. -/
def acmeAnswers (arrivals : List Arrival) : List (Outcome × Option Answer) :=
  answers (app urlPath 1 plainEnvironment acmeAndBolt) (fun a => a.slug = "acme")
    (⟨0, fun _ => none⟩, .empty) arrivals

/-- Whatever the second tenant requests, the first one is answered once, and then refused. -/
theorem flood_changes_nothing :
    acmeAnswers flooded = (acmeAnswers alone).map (renameOutcome (.refl _)) ∧
      (acmeAnswers alone).map (·.1) =
        [.handled (some ⟨1, 0, 60⟩), .tooMany "Rate limit exceeded" 30 ⟨1, 0, 60⟩] := by
  have orderly : Orderly urlPath (fun _ => 0) acmeAndBolt 0 alone :=
    orderly_lists (by simp [executions, alone, asAcme, listsBooks]) fun a mem => by
      simp only [alone, List.mem_cons, List.not_mem_nil, or_false] at mem
      rcases mem with rfl | rfl
      · exact ⟨_, .inl rfl⟩
      · exact ⟨_, .inl rfl⟩
  have orderlyFlooded : Orderly urlPath (fun _ => 0) acmeAndBolt 0 flooded :=
    orderly_lists (by simp [executions, flooded, asAcme, asBolt, listsBooks]) fun a mem => by
      simp only [flooded, List.mem_cons, List.not_mem_nil, or_false] at mem
      rcases mem with rfl | rfl | rfl | rfl | rfl
      · exact ⟨_, .inr rfl⟩
      · exact ⟨_, .inl rfl⟩
      · exact ⟨_, .inr rfl⟩
      · exact ⟨_, .inr rfl⟩
      · exact ⟨_, .inl rfl⟩
  constructor
  · exact answers_independent urlPath 1 plainEnvironment acmeAndBolt (isolated_empty _) (isolated_empty _)
      orderly orderlyFlooded "acme" (.refl _) (fun tenant _ => fixes_empty _ tenant.id _) rfl
  · decide +kernel

end TenantLibrary.Tenancy
