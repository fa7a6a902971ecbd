import TenantLibrary.Lib.Regex
import TenantLibrary.Store.Schema

/-!
The creation of tenants (`app/api/v1/tenants.py`).

`create_tenant` looks for a tenant with the slug or the name and expects at most one. The
table keeps slugs apart and names apart, but one tenant may have the slug and another one
the name: `creation_decides_iff` says that this, and a text the columns do not take, are
the only requests that the endpoint neither grants nor answers with 409.
-/

namespace TenantLibrary.Tenants

open TenantLibrary.Lib TenantLibrary.Store

/-! ### The table -/

structure Tenant where
  id : Uuid
  name : String
  slug : String
deriving DecidableEq, Repr

/-- The primary key, and the unique columns `name` and `slug`. -/
def Tenant.Clash (a b : Tenant) : Prop := a.id = b.id ∨ a.name = b.name ∨ a.slug = b.slug

instance : DecidableRel Tenant.Clash := fun a b => by unfold Tenant.Clash; infer_instance

abbrev TenantTable := Table Tenant Tenant.Clash

def insertTenant (tenant : Tenant) (t : TenantTable) : Except DbError TenantTable := do
  let name ← varchar 255 tenant.name
  let slug ← varchar 100 tenant.slug
  orUniqueViolation (t.insert { tenant with name, slug })

/-! ### The request -/

/-- `[a-z0-9]`. -/
def slugChar (c : Char) : Bool := ('a' ≤ c && c ≤ 'z') || ('0' ≤ c && c ≤ '9')

/-- `^[a-z0-9]+(?:-[a-z0-9]+)*$`; the `$` also matches before a last line break. -/
def slugPattern : Regex Char :=
  let word := Regex.plus (.one slugChar)
  .seq word (.seq (.star (.seq (.one (· = '-')) word)) (.optional (.one (· = '\n'))))

/-- A body that `slug_format` has passed. -/
structure TenantCreate where
  name : String
  slug : String
  slugFormat : slugPattern.accepts slug.toList

/-- Validation of a body. -/
def TenantCreate.validate (name slug : String) : Except String TenantCreate :=
  if slugFormat : slugPattern.accepts slug.toList then .ok { name, slug, slugFormat }
  else .error "Slug must be lowercase alphanumeric with hyphens"

/-! ### The endpoint -/

inductive Raised where
  | httpException (statusCode : Nat) (detail : String)
  | multipleResultsFound
  | couldNotRefresh
deriving DecidableEq, Repr

abbrev CreationM := SessionM TenantTable Tenant DbError Raised

/-- `select(Tenant).where((Tenant.slug == slug) | (Tenant.name == name))`; a text
parameter with a NUL is refused. -/
def selectBySlugOrName (slug name : String) : CreationM (List Tenant) :=
  if '\x00' ∈ slug.toList ∨ '\x00' ∈ name.toList then
    throw (.database (.dataError "invalid byte sequence for encoding UTF8"))
  else
    SessionM.select insertTenant fun t =>
      t.rows.filter fun tenant => tenant.slug = slug ∨ tenant.name = name

/-- `scalar_one_or_none`. -/
def scalarOneOrNone : List Tenant → CreationM (Option Tenant)
  | [] => return none
  | [tenant] => return some tenant
  | _ :: _ :: _ => throw (.raised .multipleResultsFound)

/-- `session.refresh`: read the row again. -/
def refresh (tenant : Tenant) : CreationM Tenant := do
  match ← SessionM.select insertTenant fun t => t.rows.find? (·.id = tenant.id) with
  | some row => return row
  | none => throw (.raised .couldNotRefresh)

/-- `create_tenant`; `id` is the `uuid4` of the new row. -/
def createTenant (id : Uuid) (body : TenantCreate) : CreationM Tenant := do
  let result ← selectBySlugOrName body.slug body.name
  match ← scalarOneOrNone result with
  | some existing =>
      let field := if existing.slug = body.slug then "slug" else "name"
      throw (.raised (.httpException 409 s!"Tenant with this {field} already exists"))
  | none =>
      let tenant : Tenant := { id, name := body.name, slug := body.slug }
      SessionM.add tenant
      SessionM.commit insertTenant
      refresh tenant

/-- A call of the endpoint: the body, and the identifier drawn. -/
structure Call where
  id : Uuid
  body : TenantCreate

/-- What a call, in a session of its own, answers and leaves committed. -/
def Call.run (call : Call) (t : TenantTable) :
    Except (SessionError DbError Raised) Tenant × TenantTable :=
  let (answer, session) := (createTenant call.id call.body).runOn (.opened t)
  (answer, session.committed)

/-- The table after calls one after the other, whatever they answer. -/
def tableAfter (calls : List Call) : TenantTable :=
  calls.foldl (fun t call => (call.run t).2) .empty

/-! ### What is to hold -/

/-- The row a call is to add. -/
def Call.tenant (call : Call) : Tenant := ⟨call.id, call.body.name, call.body.slug⟩

def InUse (t : TenantTable) (body : TenantCreate) : Prop :=
  ∃ tenant ∈ t.rows, tenant.slug = body.slug ∨ tenant.name = body.name

/-- The call adds its row and returns it, or answers 409 and leaves the table. -/
def Decides (t : TenantTable) (call : Call) : Prop :=
  (¬ InUse t call.body → (call.run t).1 = .ok call.tenant ∧
    (call.run t).2.rows = t.rows ++ [call.tenant]) ∧
  (InUse t call.body → (∃ detail, (call.run t).1 = .error (.raised (.httpException 409 detail))) ∧
    (call.run t).2 = t)

/-- The request is one the endpoint can decide. -/
structure Answerable (t : TenantTable) (body : TenantCreate) : Prop where
  noNul : '\x00' ∉ body.name.toList
  oneTenant : ∀ a ∈ t.rows, ∀ b ∈ t.rows, a.slug = body.slug → b.name = body.name → a = b
  fits : ¬ InUse t body → body.name.toList.length ≤ 255 ∧ body.slug.toList.length ≤ 100

/-! ### The columns -/

/-- The symbols of an accepted slug. -/
theorem mem_slug (body : TenantCreate) {c : Char} (mem : c ∈ body.slug.toList) :
    slugChar c ∨ c = '-' ∨ c = '\n' := by
  have word : (Regex.plus (.one slugChar)).Within fun c => slugChar c ∨ c = '-' ∨ c = '\n' :=
    ⟨fun _ => .inl, fun _ => .inl⟩
  have within : slugPattern.Within fun c => slugChar c ∨ c = '-' ∨ c = '\n' :=
    ⟨word, ⟨fun _ hyphen => .inr (.inl (of_decide_eq_true hyphen)), word⟩, trivial,
      fun _ newline => .inr (.inr (of_decide_eq_true newline))⟩
  exact within.forall_mem ((Regex.accepts_iff _).mp body.slugFormat) c mem

theorem slug_noNul (body : TenantCreate) : '\x00' ∉ body.slug.toList := by
  intro mem
  have symbol := mem_slug body mem
  simp [slugChar] at symbol

/-! ### One call -/

section

variable {t : TenantTable} {call : Call}

/-- The rows the endpoint's query finds. -/
def existing (t : TenantTable) (body : TenantCreate) : List Tenant :=
  t.rows.filter fun tenant => tenant.slug = body.slug ∨ tenant.name = body.name

theorem mem_existing {body : TenantCreate} {tenant : Tenant} :
    tenant ∈ existing t body ↔
      tenant ∈ t.rows ∧ (tenant.slug = body.slug ∨ tenant.name = body.name) := by
  simp [existing]

theorem not_inUse_iff {body : TenantCreate} : ¬ InUse t body ↔ existing t body = [] := by
  rw [List.eq_nil_iff_forall_not_mem]
  simp only [InUse, mem_existing, not_exists]

theorem run_nul (nul : '\x00' ∈ call.body.name.toList) :
    call.run t = (.error (.database (.dataError "invalid byte sequence for encoding UTF8")), t) := by
  simp [Call.run, createTenant, selectBySlugOrName, nul, Session.opened]

theorem select_existing (noNul : '\x00' ∉ call.body.name.toList) :
    (selectBySlugOrName call.body.slug call.body.name).runOn (.opened t) =
      (.ok (existing t call.body), .opened t) := by
  simp [selectBySlugOrName, slug_noNul, noNul, Session.opened, existing]

theorem run_one {tenant : Tenant} (noNul : '\x00' ∉ call.body.name.toList)
    (found : existing t call.body = [tenant]) :
    ∃ detail, call.run t = (.error (.raised (.httpException 409 detail)), t) := by
  have ran : ∃ detail, (createTenant call.id call.body).runOn (.opened t) =
      (.error (.raised (.httpException 409 detail)), .opened t) := by
    rw [createTenant, SessionM.runOn_bind_ok (select_existing noNul), found]
    exact ⟨_, rfl⟩
  obtain ⟨detail, ran⟩ := ran
  exact ⟨detail, by rw [Call.run, ran]; rfl⟩

theorem run_two {a b : Tenant} {rest : List Tenant} (noNul : '\x00' ∉ call.body.name.toList)
    (found : existing t call.body = a :: b :: rest) :
    call.run t = (.error (.raised .multipleResultsFound), t) := by
  have ran : (createTenant call.id call.body).runOn (.opened t) =
      (.error (.raised .multipleResultsFound), .opened t) := by
    rw [createTenant, SessionM.runOn_bind_ok (select_existing noNul), found]
    rfl
  rw [Call.run, ran]
  rfl

/-- With no row found, what is left of the endpoint. -/
theorem run_none (noNul : '\x00' ∉ call.body.name.toList) (found : existing t call.body = []) :
    (createTenant call.id call.body).runOn (.opened t) =
      SessionM.runOn
        (SessionM.commit insertTenant >>= fun _ => refresh call.tenant)
        ⟨t, t, [call.tenant], false⟩ := by
  rw [createTenant, SessionM.runOn_bind_ok (select_existing noNul), found]
  rfl

theorem sendAll_one (tenant : Tenant) :
    sendAll insertTenant [tenant] t = insertTenant tenant t := bind_pure _

theorem run_refused {failure : DbError} (noNul : '\x00' ∉ call.body.name.toList)
    (found : existing t call.body = []) (refused : insertTenant call.tenant t = .error failure) :
    call.run t = (.error (.database failure), t) := by
  have fails : (SessionM.commit insertTenant : CreationM Unit).runOn
      ⟨t, t, [call.tenant], false⟩ = (.error (.database failure), .dead t) := by
    rw [SessionM.runOn_commit insertTenant _ rfl, sendAll_one, refused]
  rw [Call.run, run_none noNul found, SessionM.runOn_bind_error fails]
  rfl

theorem run_inserted {after : TenantTable} {row : Tenant} (noNul : '\x00' ∉ call.body.name.toList)
    (found : existing t call.body = []) (inserted : insertTenant call.tenant t = .ok after)
    (read : after.rows.find? (·.id = call.id) = some row) : call.run t = (.ok row, after) := by
  have commits : (SessionM.commit insertTenant : CreationM Unit).runOn
      ⟨t, t, [call.tenant], false⟩ = (.ok (), .opened after) := by
    rw [SessionM.runOn_commit insertTenant _ rfl, sendAll_one, inserted]
  have selects : (SessionM.select insertTenant fun t => t.rows.find? (·.id = call.tenant.id) :
      CreationM (Option Tenant)).runOn (.opened after) = (.ok (some row), .opened after) := by
    rw [← read]
    rfl
  rw [Call.run, run_none noNul found, SessionM.runOn_bind_ok commits, refresh,
    SessionM.runOn_bind_ok selects]
  rfl

/-! ### The rows a query finds -/

/-- Two tenants found: one has the slug, and the other one the name. -/
theorem exists_apart {body : TenantCreate} {a b : Tenant} {rest : List Tenant}
    (found : existing t body = a :: b :: rest) :
    ∃ u ∈ t.rows, ∃ v ∈ t.rows, u.slug = body.slug ∧ v.name = body.name ∧ u ≠ v := by
  have members : ∀ tenant ∈ [a, b], tenant ∈ existing t body := by simp [found]
  obtain ⟨memA, hasA⟩ := mem_existing.mp (members a (by simp))
  obtain ⟨memB, hasB⟩ := mem_existing.mp (members b (by simp))
  have distinct := t.distinct.filter fun tenant =>
    decide (tenant.slug = body.slug ∨ tenant.name = body.name)
  have apart : ¬ a.Clash b := by
    change (existing t body).Pairwise _ at distinct
    rw [found] at distinct
    exact List.rel_of_pairwise_cons distinct List.mem_cons_self
  have ne : a ≠ b := fun same => apart (.inl (congrArg Tenant.id same))
  rcases hasA with slugA | nameA
  · rcases hasB with slugB | nameB
    · exact absurd (.inr (.inr (slugA.trans slugB.symm))) apart
    · exact ⟨a, memA, b, memB, slugA, nameB, ne⟩
  · rcases hasB with slugB | nameB
    · exact ⟨b, memB, a, memA, slugB, nameA, ne.symm⟩
    · exact absurd (.inr (.inl (nameA.trans nameB.symm))) apart

/-! ### The insert -/

/-- An inserted row is the tenant as the columns keep it. -/
theorem insertTenant_eq_ok {tenant : Tenant} {after : TenantTable} :
    insertTenant tenant t = .ok after ↔
      ∃ name, varchar 255 tenant.name = .ok name ∧
      ∃ slug, varchar 100 tenant.slug = .ok slug ∧
        t.insert { tenant with name, slug } = some after := by
  have unique {inserted : Option TenantTable} :
      orUniqueViolation inserted = .ok after ↔ inserted = some after := by
    cases inserted <;> simp [orUniqueViolation]
  simp only [insertTenant, bind_eq_ok, unique]

theorem find?_inserted {tenant : Tenant} {after : TenantTable}
    (inserted : t.insert tenant = some after) :
    after.rows.find? (·.id = tenant.id) = some tenant := by
  apply after.find?_of_mem
  · intro a b sameA sameB
    exact .inl ((of_decide_eq_true sameA).trans (of_decide_eq_true sameB).symm)
  · rw [(Table.insert_eq_some.mp inserted).2]
    exact List.mem_append_right _ List.mem_cons_self
  · exact decide_eq_true rfl

/-- With nobody of the slug or the name, the row is added as it is when the texts fit. -/
theorem run_free (noNul : '\x00' ∉ call.body.name.toList) (found : existing t call.body = [])
    (fresh : ∀ tenant ∈ t.rows, tenant.id ≠ call.id)
    (fits : call.body.name.toList.length ≤ 255 ∧ call.body.slug.toList.length ≤ 100) :
    (call.run t).1 = .ok call.tenant ∧ (call.run t).2.rows = t.rows ++ [call.tenant] := by
  have free : ∀ a ∈ t.rows, ¬ a.Clash call.tenant := by
    rintro a mem (sameId | sameName | sameSlug)
    · exact fresh a mem sameId
    · exact not_inUse_iff.mpr found ⟨a, mem, .inr sameName⟩
    · exact not_inUse_iff.mpr found ⟨a, mem, .inl sameSlug⟩
  obtain ⟨after, inserted⟩ := Table.exists_insert free
  have stored : insertTenant call.tenant t = .ok after :=
    insertTenant_eq_ok.mpr ⟨_, varchar_eq_ok.mpr ⟨noNul, fits.1⟩, _,
      varchar_eq_ok.mpr ⟨slug_noNul _, fits.2⟩, inserted⟩
  rw [run_inserted noNul found stored (find?_inserted inserted)]
  exact ⟨rfl, (Table.insert_eq_some.mp inserted).2⟩

/-- A call that returns its row has put the texts into the columns unchanged. -/
theorem fits_of_returned (noNul : '\x00' ∉ call.body.name.toList)
    (found : existing t call.body = []) (returned : (call.run t).1 = .ok call.tenant) :
    call.body.name.toList.length ≤ 255 ∧ call.body.slug.toList.length ≤ 100 := by
  cases stored : insertTenant call.tenant t with
  | error failure =>
      rw [run_refused noNul found stored] at returned
      cases returned
  | ok after =>
      obtain ⟨name, named, slug, slugged, inserted⟩ := insertTenant_eq_ok.mp stored
      rw [run_inserted noNul found stored (find?_inserted inserted)] at returned
      have row := Except.ok.inj returned
      obtain rfl : name = call.body.name := congrArg Tenant.name row
      obtain rfl : slug = call.body.slug := congrArg Tenant.slug row
      exact ⟨(varchar_eq_ok.mp named).2, (varchar_eq_ok.mp slugged).2⟩

/-! ### Every call -/

theorem decides_iff (fresh : ∀ tenant ∈ t.rows, tenant.id ≠ call.id) :
    Decides t call ↔ Answerable t call.body := by
  by_cases nul : '\x00' ∈ call.body.name.toList
  · constructor
    · rintro ⟨granted, refused⟩
      rw [run_nul nul] at granted refused
      by_cases inUse : InUse t call.body
      · obtain ⟨⟨detail, answer⟩, -⟩ := refused inUse
        cases answer
      · cases (granted inUse).1
    · intro answerable
      exact absurd nul answerable.noNul
  · cases found : existing t call.body with
    | nil =>
        have free : ¬ InUse t call.body := not_inUse_iff.mpr found
        constructor
        · rintro ⟨granted, -⟩
          refine ⟨nul, fun a mem _ _ sameSlug _ => ?_, fun _ => ?_⟩
          · exact absurd ⟨a, mem, .inl sameSlug⟩ free
          · exact fits_of_returned nul found (granted free).1
        · intro answerable
          exact ⟨fun _ => run_free nul found fresh (answerable.fits free), fun inUse => absurd inUse free⟩
    | cons a rest =>
        have inUse : InUse t call.body := by
          by_contra free
          simp [not_inUse_iff.mp free] at found
        cases rest with
        | nil =>
            obtain ⟨detail, ran⟩ := run_one nul found
            have only {tenant : Tenant} (mem : tenant ∈ existing t call.body) : tenant = a := by
              rw [found] at mem
              exact List.mem_singleton.mp mem
            constructor
            · intro _
              refine ⟨nul, fun u memU v memV slug name => ?_, absurd inUse⟩
              rw [only (mem_existing.mpr ⟨memU, .inl slug⟩), only (mem_existing.mpr ⟨memV, .inr name⟩)]
            · intro _
              exact ⟨absurd inUse, fun _ => ⟨⟨detail, by rw [ran]⟩, by rw [ran]⟩⟩
        | cons b rest =>
            obtain ⟨u, memU, v, memV, slug, name, ne⟩ := exists_apart found
            constructor
            · rintro ⟨-, refused⟩
              obtain ⟨⟨detail, answer⟩, -⟩ := refused inUse
              rw [run_two nul found] at answer
              cases answer
            · intro answerable
              exact absurd (answerable.oneTenant u memU v memV slug name) ne

/-- A call adds no row but its own. -/
theorem id_of_mem_run {tenant : Tenant} (mem : tenant ∈ (call.run t).2.rows) :
    tenant ∈ t.rows ∨ tenant.id = call.id := by
  by_cases nul : '\x00' ∈ call.body.name.toList
  · rw [run_nul nul] at mem
    exact .inl mem
  · cases found : existing t call.body with
    | nil =>
        cases stored : insertTenant call.tenant t with
        | error failure =>
            rw [run_refused nul found stored] at mem
            exact .inl mem
        | ok after =>
            obtain ⟨name, -, slug, -, inserted⟩ := insertTenant_eq_ok.mp stored
            rw [run_inserted nul found stored (find?_inserted inserted)] at mem
            exact (Table.mem_insert inserted mem).imp_right (congrArg Tenant.id)
    | cons a rest =>
        cases rest with
        | nil =>
            obtain ⟨detail, ran⟩ := run_one nul found
            rw [ran] at mem
            exact .inl mem
        | cons b rest =>
            rw [run_two nul found] at mem
            exact .inl mem

end

theorem id_of_mem_tableAfter (calls : List Call) :
    ∀ tenant ∈ (tableAfter calls).rows, tenant.id ∈ calls.map Call.id := by
  suffices general : ∀ t : TenantTable,
      ∀ tenant ∈ (calls.foldl (fun t call => (call.run t).2) t).rows,
        tenant ∈ t.rows ∨ tenant.id ∈ calls.map Call.id by
    intro tenant mem
    exact (general .empty tenant mem).resolve_left List.not_mem_nil
  induction calls with
  | nil => exact fun t tenant mem => .inl mem
  | cons call later ih =>
      intro t tenant mem
      rcases ih _ tenant mem with before | drawn
      · apply (id_of_mem_run before).imp_right
        intro same
        rw [same]
        exact List.mem_cons_self
      · exact .inr (List.mem_cons_of_mem _ drawn)

/-- After any calls, names and slugs are unique, and the next call is decided when its
request is answerable. -/
theorem creation_decides_iff (calls : List Call) (call : Call)
    (fresh : call.id ∉ calls.map Call.id) :
    ((tableAfter calls).rows.map Tenant.name).Nodup ∧
    ((tableAfter calls).rows.map Tenant.slug).Nodup ∧
    (Decides (tableAfter calls) call ↔ Answerable (tableAfter calls) call.body) := by
  have distinct := (tableAfter calls).distinct
  refine ⟨?_, ?_, decides_iff fun tenant mem same => ?_⟩
  · exact List.pairwise_map.mpr (distinct.imp fun apart same => apart (.inr (.inl same)))
  · exact List.pairwise_map.mpr (distinct.imp fun apart same => apart (.inr (.inr same)))
  · have drawn := id_of_mem_tableAfter calls tenant mem
    rw [same] at drawn
    exact fresh drawn

/-- Two libraries, and a request for the name of one and the slug of the other. -/
def northCall : Call := ⟨1, ⟨"North Library", "north", by decide⟩⟩
def southCall : Call := ⟨2, ⟨"South Library", "south", by decide⟩⟩
def crossedCall : Call := ⟨3, ⟨"North Library", "south", by decide⟩⟩

theorem south_is_created : Decides (tableAfter [northCall]) southCall := by
  obtain ⟨-, -, decides⟩ := creation_decides_iff [northCall] southCall (by decide)
  have answerable : Answerable (tableAfter [northCall]) southCall.body :=
    ⟨by decide, by decide, fun _ => by decide⟩
  exact decides.mpr answerable

theorem crossed_call_raises :
    (tableAfter [northCall, southCall]).rows = [northCall.tenant, southCall.tenant] ∧
    InUse (tableAfter [northCall, southCall]) crossedCall.body ∧
    (crossedCall.run (tableAfter [northCall, southCall])).1 =
      .error (.raised .multipleResultsFound) := by
  refine ⟨rfl, ⟨northCall.tenant, ?_, .inr rfl⟩, rfl⟩
  exact List.mem_cons_self

end TenantLibrary.Tenants
