import TenantLibrary.Tenants.Concurrent

/-!
The default tenants (`app/seed.py`).

`seed_tenants` runs each time the API starts. For each default tenant it looks for the slug,
and adds the tenant when there is none. The names are unique as well, so a tenant that has
the name of a default one under another slug makes the seeding raise, and then it leaves
nothing (`seeding_settles`). A seeding that has not raised is final: no later one raises or
changes anything. One that has raised goes on raising until the slug is taken
(`seeding_persists`).
-/

namespace TenantLibrary.Tenants

open TenantLibrary.Lib TenantLibrary.Store

/-! ### The program -/

/-- An entry of `DEFAULT_TENANTS`. -/
structure TenantData where
  name : String
  slug : String
deriving DecidableEq, Repr

/-- `DEFAULT_TENANTS`. -/
def defaultTenants : List TenantData :=
  [⟨"Downtown Public Library", "downtown-library"⟩,
    ⟨"Westside Branch Library", "westside-library"⟩,
    ⟨"University Library", "university-library"⟩]

/-- `Tenant(**tenant_data)`, with the identifier it draws. -/
def TenantData.tenant (data : TenantData) (id : Uuid) : Tenant := ⟨id, data.name, data.slug⟩

/-- One round of the loop. -/
def seedTenant (data : TenantData) (id : Uuid) : CreationM PUnit := do
  let result ← SessionM.select insertTenant fun t => t.rows.filter (·.slug = data.slug)
  match ← scalarOneOrNone result with
  | none => SessionM.add (data.tenant id)
  | some _ => pure ()

/-- `seed_tenants`; `draw i` is the `uuid4` of the `i`-th default tenant. -/
def seedTenants (draw : Nat → Uuid) : CreationM Unit := do
  (defaultTenants.zipIdx.map fun (data, i) => (data, draw i)).forM fun (data, id) =>
    seedTenant data id
  SessionM.commit insertTenant

/-- What a seeding, in a session of its own, ends with and leaves committed. -/
def seed (draw : Nat → Uuid) (t : TenantTable) :
    Except (SessionError DbError Raised) Unit × TenantTable :=
  let (answer, session) := (seedTenants draw).runOn (.opened t)
  (answer, session.committed)

/-! ### Histories -/

/-- A request, or a start of the API. -/
inductive Event where
  | create (call : Call)
  | start (draw : Nat → Uuid)

/-- The table an event leaves. -/
def Event.after (t : TenantTable) : Event → TenantTable
  | .create call => (call.run t).2
  | .start draw => (seed draw t).2

/-- The identifiers an event draws. -/
def Event.ids : Event → List Uuid
  | .create call => [call.id]
  | .start draw => (List.range defaultTenants.length).map draw

/-- The table after events one after the other. -/
def tableAfterEvents (events : List Event) : TenantTable := events.foldl Event.after .empty

/-! ### What is to hold -/

/-- Some tenant has the slug. -/
def Present (t : TenantTable) (data : TenantData) : Prop := ∃ tenant ∈ t.rows, tenant.slug = data.slug

/-- The slug is free, but another tenant has the name. -/
def Blocked (t : TenantTable) (data : TenantData) : Prop :=
  ¬ Present t data ∧ ∃ tenant ∈ t.rows, tenant.name = data.name

instance (t : TenantTable) (data : TenantData) : Decidable (Present t data) := by
  unfold Present; infer_instance

instance (t : TenantTable) (data : TenantData) : Decidable (Blocked t data) := by
  unfold Blocked; infer_instance

/-- The tenants of the seeds whose slugs are free. -/
def missing (t : TenantTable) (seeds : List (TenantData × Uuid)) : List Tenant :=
  (seeds.filter fun seed => ¬ Present t seed.1).map fun seed => seed.1.tenant seed.2

/-- The default tenants with the identifiers drawn for them. -/
def seedsOf (draw : Nat → Uuid) : List (TenantData × Uuid) :=
  defaultTenants.zipIdx.map fun (data, i) => (data, draw i)

/-! ### The loop without a session -/

/-- One round, on a table. -/
def plainSeed (seed : TenantData × Uuid) : StateT TenantTable (Except DbError) PUnit := fun t =>
  if Present t seed.1 then .ok ((), t)
  else (insertTenant (seed.1.tenant seed.2) t).map fun after => ((), after)

/-- What a round does with the tenants its query finds. -/
def afterLookup (data : TenantData) (id : Uuid) (result : List Tenant) :
    StateT TenantTable (Except DbError) PUnit :=
  if result = [] then fun t => (insertTenant (data.tenant id) t).map fun after => ((), after)
  else pure ()

theorem plainSeed_eq (data : TenantData) (id : Uuid) : plainSeed (data, id) = fun t =>
    afterLookup data id (t.rows.filter (·.slug = data.slug)) t := by
  funext t
  have absent : t.rows.filter (·.slug = data.slug) = [] ↔ ¬ Present t data := by
    simp [Present]
  by_cases present : Present t data
  · rw [plainSeed, if_pos present, afterLookup, if_neg (by rw [absent]; exact not_not.mpr present)]
    rfl
  · rw [plainSeed, if_neg present, afterLookup, if_pos (absent.mpr present)]

theorem tracks_seedTenant (data : TenantData) (id : Uuid) :
    Tracks insertTenant (seedTenant data id) (plainSeed (data, id)) := by
  rw [plainSeed_eq]
  refine @Tracks.select_bind TenantTable Tenant DbError Raised (List Tenant) PUnit insertTenant
    (fun t => t.rows.filter (·.slug = data.slug)) _ (afterLookup data id) fun t => ?_
  have atMostOne := @Table.filter_length_le_one _ _ t (fun tenant => tenant.slug = data.slug)
    fun a b isA isB => .inr (.inr ((of_decide_eq_true isA).trans (of_decide_eq_true isB).symm))
  generalize t.rows.filter (·.slug = data.slug) = result at atMostOne ⊢
  match result with
  | [] => exact Tracks.add _
  | [tenant] => exact Tracks.pure _
  | _ :: _ :: _ => simp at atMostOne

/-! ### The loop on a table -/

/-- Seeds that clash neither with each other nor, in their identifiers, with the table. -/
structure Seedable (t : TenantTable) (seeds : List (TenantData × Uuid)) : Prop where
  names : (seeds.map (·.1.name)).Nodup
  slugs : (seeds.map (·.1.slug)).Nodup
  ids : (seeds.map (·.2)).Nodup
  fresh : ∀ seed ∈ seeds, ∀ tenant ∈ t.rows, tenant.id ≠ seed.2
  fits : ∀ seed ∈ seeds, varchar 255 seed.1.name = .ok seed.1.name ∧
    varchar 100 seed.1.slug = .ok seed.1.slug

section

variable {t after : TenantTable} {seed : TenantData × Uuid} {seeds : List (TenantData × Uuid)}

theorem insert_seed (seedable : Seedable t (seed :: seeds)) (absent : ¬ Present t seed.1)
    (free : ¬ Blocked t seed.1) :
    ∃ after, insertTenant (seed.1.tenant seed.2) t = .ok after ∧
      after.rows = t.rows ++ [seed.1.tenant seed.2] := by
  obtain ⟨name, slug⟩ := seedable.fits seed List.mem_cons_self
  have noClash : ∀ a ∈ t.rows, ¬ a.Clash (seed.1.tenant seed.2) := by
    rintro a mem (sameId | sameName | sameSlug)
    · exact seedable.fresh seed List.mem_cons_self a mem sameId
    · exact free ⟨absent, a, mem, sameName⟩
    · exact absent ⟨a, mem, sameSlug⟩
  obtain ⟨after, inserted⟩ := Table.exists_insert noClash
  exact ⟨after, insertTenant_eq_ok.mpr ⟨_, name, _, slug, inserted⟩,
    (Table.insert_eq_some.mp inserted).2⟩

theorem insert_blocked (seedable : Seedable t (seed :: seeds)) (blocked : Blocked t seed.1) :
    insertTenant (seed.1.tenant seed.2) t = .error .uniqueViolation := by
  obtain ⟨name, slug⟩ := seedable.fits seed List.mem_cons_self
  obtain ⟨-, tenant, mem, same⟩ := blocked
  have taken : t.insert (seed.1.tenant seed.2) = none :=
    Table.insert_eq_none.mpr fun free => free tenant mem (.inr (.inl same))
  have name' : varchar 255 (seed.1.tenant seed.2).name = .ok seed.1.name := name
  have slug' : varchar 100 (seed.1.tenant seed.2).slug = .ok seed.1.slug := slug
  simp only [insertTenant, name', slug']
  change orUniqueViolation (t.insert (seed.1.tenant seed.2)) = _
  rw [taken]
  rfl

variable (seedable : Seedable t (seed :: seeds))
  (inserted : after.rows = t.rows ++ [seed.1.tenant seed.2])

include seedable inserted

theorem present_after {other : TenantData × Uuid} (mem : other ∈ seeds) :
    Present after other.1 ↔ Present t other.1 := by
  have different : seed.1.slug ≠ other.1.slug := fun same =>
    (List.nodup_cons.mp seedable.slugs).1 (List.mem_map.mpr ⟨other, mem, same.symm⟩)
  simp only [Present, inserted, List.mem_append, List.mem_singleton, or_and_right, exists_or]
  constructor
  · rintro (old | ⟨_, rfl, same⟩)
    · exact old
    · exact absurd same different
  · exact .inl

theorem blocked_after {other : TenantData × Uuid} (mem : other ∈ seeds) :
    Blocked after other.1 ↔ Blocked t other.1 := by
  have different : seed.1.name ≠ other.1.name := fun same =>
    (List.nodup_cons.mp seedable.names).1 (List.mem_map.mpr ⟨other, mem, same.symm⟩)
  rw [Blocked, Blocked, present_after seedable inserted mem]
  simp only [inserted, List.mem_append, List.mem_singleton, or_and_right, exists_or]
  constructor
  · rintro ⟨absent, old | ⟨_, rfl, same⟩⟩
    · exact ⟨absent, old⟩
    · exact absurd same different
  · rintro ⟨absent, old⟩
    exact ⟨absent, .inl old⟩

theorem missing_after : missing after seeds = missing t seeds := by
  unfold missing
  congr 1
  apply List.filter_congr
  intro other mem
  simp only [present_after seedable inserted mem]

theorem seedable_after : Seedable after seeds where
  names := (List.nodup_cons.mp seedable.names).2
  slugs := (List.nodup_cons.mp seedable.slugs).2
  ids := (List.nodup_cons.mp seedable.ids).2
  fits := fun other mem => seedable.fits other (List.mem_cons_of_mem _ mem)
  fresh := by
    intro other mem tenant inTable
    rw [inserted] at inTable
    rcases List.mem_append.mp inTable with old | last
    · exact seedable.fresh other (List.mem_cons_of_mem _ mem) tenant old
    · obtain rfl := List.mem_singleton.mp last
      exact fun same => (List.nodup_cons.mp seedable.ids).1
        (List.mem_map.mpr ⟨other, mem, same.symm⟩)

end

theorem Seedable.tail {t : TenantTable} {seed : TenantData × Uuid} {seeds : List (TenantData × Uuid)}
    (seedable : Seedable t (seed :: seeds)) : Seedable t seeds where
  names := (List.nodup_cons.mp seedable.names).2
  slugs := (List.nodup_cons.mp seedable.slugs).2
  ids := (List.nodup_cons.mp seedable.ids).2
  fresh := fun other mem => seedable.fresh other (List.mem_cons_of_mem _ mem)
  fits := fun other mem => seedable.fits other (List.mem_cons_of_mem _ mem)

/-- The loop adds the missing tenants in order, or fails at one whose name is in use. -/
theorem plain_run {t : TenantTable} {seeds : List (TenantData × Uuid)} (seedable : Seedable t seeds) :
    ((∀ seed ∈ seeds, ¬ Blocked t seed.1) ∧ ∃ after,
      (seeds.forM plainSeed).run t = .ok ((), after) ∧ after.rows = t.rows ++ missing t seeds) ∨
    (∃ seed ∈ seeds, Blocked t seed.1) ∧ (seeds.forM plainSeed).run t = .error .uniqueViolation := by
  induction seeds generalizing t with
  | nil => exact .inl ⟨nofun, t, rfl, by simp [missing]⟩
  | cons seed seeds ih =>
      have first : ((seed :: seeds).forM plainSeed).run t =
          (plainSeed seed).run t >>= fun reached => (seeds.forM plainSeed).run reached.2 := rfl
      rw [first]
      by_cases present : Present t seed.1
      · have skips : (plainSeed seed).run t = .ok ((), t) := if_pos present
        have none_ : missing t (seed :: seeds) = missing t seeds := by simp [missing, present]
        rw [skips, none_]
        rcases ih seedable.tail with ⟨free, added⟩ | ⟨⟨other, mem, blocked⟩, raised⟩
        · exact .inl ⟨List.forall_mem_cons.mpr ⟨fun blocked => blocked.1 present, free⟩, added⟩
        · exact .inr ⟨⟨other, List.mem_cons_of_mem _ mem, blocked⟩, raised⟩
      · by_cases blocked : Blocked t seed.1
        · have raises : (plainSeed seed).run t = .error .uniqueViolation := by
            refine (if_neg present).trans ?_
            rw [insert_blocked seedable blocked]
            rfl
          rw [raises]
          exact .inr ⟨⟨seed, List.mem_cons_self, blocked⟩, rfl⟩
        · obtain ⟨next, stored, inserted⟩ := insert_seed seedable present blocked
          have adds : (plainSeed seed).run t = .ok ((), next) := by
            refine (if_neg present).trans ?_
            rw [stored]
            rfl
          have more : missing t (seed :: seeds) = seed.1.tenant seed.2 :: missing t seeds := by
            simp [missing, present]
          rw [adds]
          rcases ih (seedable_after seedable inserted) with
            ⟨free, after, ran, rows⟩ | ⟨⟨other, mem, isBlocked⟩, raised⟩
          · refine .inl ⟨List.forall_mem_cons.mpr ⟨blocked, fun other mem => ?_⟩, after, ran, ?_⟩
            · rw [← blocked_after seedable inserted mem]
              exact free other mem
            · rw [rows, inserted, missing_after seedable inserted, more, List.append_assoc,
                List.singleton_append]
          · refine .inr ⟨⟨other, List.mem_cons_of_mem _ mem, ?_⟩, raised⟩
            exact (blocked_after seedable inserted mem).mp isBlocked

/-! ### One seeding -/

/-- A seeding is the loop on the table, committed or given up. -/
theorem seed_eq (draw : Nat → Uuid) (t : TenantTable) :
    seed draw t = match ((seedsOf draw).forM plainSeed).run t with
      | .ok (_, after) => (.ok (), after)
      | .error e => (.error (.database e), t) := by
  have each (seed : TenantData × Uuid) :
      Tracks insertTenant (seedTenant seed.1 seed.2) (plainSeed seed) :=
    tracks_seedTenant seed.1 seed.2
  have tracks := Tracks.forM each (seedsOf draw)
  have holding : Holding insertTenant t (.ok t) (Session.opened t) := ⟨rfl, rfl, rfl⟩
  have ended := tracks.committed holding
  change (seedTenants draw).runOn (.opened t) = _ at ended
  rw [seed, ended]
  cases ((seedsOf draw).forM plainSeed).run t <;> rfl

theorem mem_seedsOf {draw : Nat → Uuid} {seed : TenantData × Uuid} :
    seed ∈ seedsOf draw ↔ ∃ i, defaultTenants[i]? = some seed.1 ∧ draw i = seed.2 := by
  simp only [seedsOf, List.mem_map, Prod.exists, List.mem_zipIdx_iff_getElem?]
  constructor
  · rintro ⟨data, i, there, rfl⟩
    exact ⟨i, there, rfl⟩
  · rintro ⟨i, there, drawn⟩
    exact ⟨seed.1, i, there, by rw [drawn]⟩

theorem mem_defaults {draw : Nat → Uuid} {data : TenantData} (mem : data ∈ defaultTenants) :
    ∃ id, (data, id) ∈ seedsOf draw := by
  obtain ⟨i, there⟩ := List.mem_iff_getElem?.mp mem
  exact ⟨draw i, mem_seedsOf.mpr ⟨i, there, rfl⟩⟩

theorem data_of_mem {draw : Nat → Uuid} {seed : TenantData × Uuid} (mem : seed ∈ seedsOf draw) :
    seed.1 ∈ defaultTenants ∧ seed.2 ∈ (Event.start draw).ids := by
  obtain ⟨i, there, drawn⟩ := mem_seedsOf.mp mem
  obtain ⟨inside, -⟩ := List.getElem?_eq_some_iff.mp there
  exact ⟨List.mem_of_getElem? there, List.mem_map.mpr ⟨i, List.mem_range.mpr inside, drawn⟩⟩

/-- The default tenants fit the columns. -/
theorem defaults_fit : ∀ data ∈ defaultTenants,
    ('\x00' ∉ data.name.toList ∧ data.name.toList.length ≤ 255) ∧
      '\x00' ∉ data.slug.toList ∧ data.slug.toList.length ≤ 100 := by
  decide

theorem seedable_defaults {draw : Nat → Uuid} {t : TenantTable}
    (fresh : ∀ tenant ∈ t.rows, tenant.id ∉ (Event.start draw).ids)
    (distinct : (Event.start draw).ids.Nodup) : Seedable t (seedsOf draw) where
  names := by simp [seedsOf, defaultTenants]
  slugs := by simp [seedsOf, defaultTenants]
  ids := distinct
  fresh := fun seed mem tenant inTable same => fresh tenant inTable (same ▸ (data_of_mem mem).2)
  fits := fun seed mem =>
    have fit := defaults_fit seed.1 (data_of_mem mem).1
    ⟨varchar_eq_ok.mpr fit.1, varchar_eq_ok.mpr fit.2⟩

/-- A seeding adds the missing default tenants, or raises and leaves nothing. -/
theorem seed_cases {draw : Nat → Uuid} {t : TenantTable}
    (fresh : ∀ tenant ∈ t.rows, tenant.id ∉ (Event.start draw).ids)
    (distinct : (Event.start draw).ids.Nodup) :
    ((∀ data ∈ defaultTenants, ¬ Blocked t data) ∧ (seed draw t).1 = .ok () ∧
      (seed draw t).2.rows = t.rows ++ missing t (seedsOf draw)) ∨
    (∃ data ∈ defaultTenants, Blocked t data) ∧
      seed draw t = (.error (.database .uniqueViolation), t) := by
  rw [seed_eq]
  rcases plain_run (seedable_defaults fresh distinct) with
    ⟨free, after, ran, rows⟩ | ⟨⟨seed, mem, blocked⟩, raised⟩
  · rw [ran]
    refine .inl ⟨fun data mem => ?_, rfl, rows⟩
    obtain ⟨id, inSeeds⟩ := mem_defaults mem
    exact free _ inSeeds
  · rw [raised]
    exact .inr ⟨⟨seed.1, (data_of_mem mem).1, blocked⟩, rfl⟩

/-! ### Events -/

/-- A call leaves the table, or adds its row. -/
theorem run_cases (call : Call) (t : TenantTable) : (call.run t).2 = t ∨
    ∃ row, Concurrent.columns call.tenant = .ok row ∧ (call.run t).2.rows = t.rows ++ [row] := by
  by_cases nul : '\x00' ∈ call.body.name.toList
  · exact .inl (by rw [run_nul nul])
  · match found : existing t call.body with
    | [] =>
        cases stored : insertTenant call.tenant t with
        | error failure => exact .inl (by rw [run_refused nul found stored])
        | ok after =>
            obtain ⟨name, named, slug, slugged, inserted⟩ := insertTenant_eq_ok.mp stored
            rw [run_inserted nul found stored (find?_inserted inserted)]
            exact .inr ⟨_, Concurrent.columns_eq_ok.mpr ⟨name, named, slug, slugged, rfl⟩,
              (Table.insert_eq_some.mp inserted).2⟩
    | [_] =>
        obtain ⟨detail, ran⟩ := run_one nul found
        exact .inl (by rw [ran])
    | _ :: _ :: _ => exact .inl (by rw [run_two nul found])

/-- What an event can do to a table. -/
inductive Effect (t : TenantTable) : Event → TenantTable → Prop where
  | nothing (event : Event) : Effect t event t
  | created (call : Call) (row : Tenant) (after : TenantTable)
      (stored : Concurrent.columns call.tenant = .ok row) (rows : after.rows = t.rows ++ [row]) :
      Effect t (.create call) after
  | seeded (draw : Nat → Uuid) (after : TenantTable)
      (free : ∀ data ∈ defaultTenants, ¬ Blocked t data)
      (rows : after.rows = t.rows ++ missing t (seedsOf draw)) : Effect t (.start draw) after

/-- The identifiers that events draw. -/
def idsOf (events : List Event) : List Uuid := events.flatMap Event.ids

/-- The table draws nothing again. -/
structure Fresh (t : TenantTable) (events : List Event) : Prop where
  unused : ∀ tenant ∈ t.rows, tenant.id ∉ idsOf events
  distinct : (idsOf events).Nodup

variable {t : TenantTable} {event : Event} {events : List Event}

theorem Fresh.effect (fresh : Fresh t (event :: events)) : Effect t event (event.after t) := by
  cases event with
  | create call =>
      rcases run_cases call t with same | ⟨row, stored, rows⟩
      · have unchanged : (Event.create call).after t = t := same
        rw [unchanged]
        exact .nothing _
      · exact .created call row _ stored rows
  | start draw =>
      have unused : ∀ tenant ∈ t.rows, tenant.id ∉ (Event.start draw).ids := fun tenant mem drawn =>
        fresh.unused tenant mem (List.mem_append_left _ drawn)
      have distinct : (Event.start draw).ids.Nodup := (List.nodup_append.mp fresh.distinct).1
      rcases seed_cases unused distinct with ⟨free, -, rows⟩ | ⟨-, raised⟩
      · exact .seeded draw _ free rows
      · have same : (Event.start draw).after t = t := congrArg Prod.snd raised
        rw [same]
        exact .nothing _

/-- The rows an event adds carry identifiers that it draws. -/
theorem Effect.grows {after : TenantTable} (effect : Effect t event after) :
    ∃ added, after.rows = t.rows ++ added ∧ ∀ tenant ∈ added, tenant.id ∈ event.ids := by
  cases effect with
  | nothing => exact ⟨[], (List.append_nil _).symm, nofun⟩
  | created call row after stored rows =>
      refine ⟨[row], rows, fun tenant mem => ?_⟩
      obtain rfl := List.mem_singleton.mp mem
      obtain ⟨name, -, slug, -, rfl⟩ := Concurrent.columns_eq_ok.mp stored
      exact List.mem_singleton.mpr rfl
  | seeded draw after free rows =>
      refine ⟨_, rows, fun tenant mem => ?_⟩
      obtain ⟨seed, inSeeds, rfl⟩ := List.mem_map.mp mem
      exact (data_of_mem (List.mem_filter.mp inSeeds).1).2

theorem Fresh.next (fresh : Fresh t (event :: events)) : Fresh (event.after t) events := by
  obtain ⟨-, rest, apart⟩ := List.nodup_append.mp fresh.distinct
  refine ⟨fun tenant mem drawn => ?_, rest⟩
  obtain ⟨added, rows, ids⟩ := fresh.effect.grows
  rw [rows] at mem
  rcases List.mem_append.mp mem with old | new
  · exact fresh.unused tenant old (List.mem_append_right _ drawn)
  · exact apart _ (ids tenant new) _ drawn rfl

/-- The table after more events. -/
def afterAll (t : TenantTable) (events : List Event) : TenantTable := events.foldl Event.after t

/-- What every event keeps holds after all of them. -/
theorem Fresh.run {later : List Event} (Holds : TenantTable → Prop)
    (kept : ∀ t event rest, Fresh t (event :: rest) → event ∈ events → Holds t → Holds (event.after t))
    (fresh : Fresh t (events ++ later)) (start : Holds t) :
    Holds (afterAll t events) ∧ Fresh (afterAll t events) later := by
  induction events generalizing t with
  | nil => exact ⟨start, fresh⟩
  | cons event events ih =>
      exact ih (fun t other rest fresh mem => kept t other rest fresh (List.mem_cons_of_mem _ mem))
        fresh.next (kept t event _ fresh List.mem_cons_self start)

theorem fresh_empty (distinct : (idsOf events).Nodup) : Fresh .empty events :=
  ⟨fun _ mem => absurd mem List.not_mem_nil, distinct⟩

theorem afterAll_append (events later : List Event) :
    tableAfterEvents (events ++ later) = afterAll (tableAfterEvents events) later :=
  List.foldl_append

theorem fresh_after {later : List Event} (distinct : (idsOf (events ++ later)).Nodup) :
    Fresh (tableAfterEvents events) later :=
  ((fresh_empty distinct).run (fun _ => True) (fun _ _ _ _ _ _ => trivial) trivial).2

/-! ### What every history keeps -/

theorem present_effect {after : TenantTable} {data : TenantData} (effect : Effect t event after)
    (present : Present t data) : Present after data := by
  obtain ⟨tenant, mem, same⟩ := present
  obtain ⟨added, rows, -⟩ := effect.grows
  exact ⟨tenant, rows ▸ List.mem_append_left _ mem, same⟩

/-- A blocked default tenant stays blocked while nobody creates its slug. -/
theorem blocked_effect {after : TenantTable} {data : TenantData} (effect : Effect t event after)
    (isDefault : data ∈ defaultTenants)
    (elsewhere : ∀ call, event = .create call → call.body.slug ≠ data.slug)
    (blocked : Blocked t data) : Blocked after data := by
  obtain ⟨absent, tenant, mem, same⟩ := blocked
  cases effect with
  | nothing => exact ⟨absent, tenant, mem, same⟩
  | created call row after stored rows =>
      refine ⟨?_, tenant, rows ▸ List.mem_append_left _ mem, same⟩
      rintro ⟨other, inTable, isSlug⟩
      rw [rows] at inTable
      rcases List.mem_append.mp inTable with old | last
      · exact absent ⟨other, old, isSlug⟩
      · obtain rfl := List.mem_singleton.mp last
        exact elsewhere call rfl ((Concurrent.slug_of_columns stored).symm.trans isSlug)
  | seeded draw after free rows => exact absurd ⟨absent, tenant, mem, same⟩ (free data isDefault)

/-- The default tenants that were missing are there. -/
theorem present_seeded {draw : Nat → Uuid} {after : TenantTable}
    (rows : after.rows = t.rows ++ missing t (seedsOf draw)) :
    ∀ data ∈ defaultTenants, Present after data := by
  intro data mem
  by_cases present : Present t data
  · obtain ⟨tenant, inTable, same⟩ := present
    exact ⟨tenant, rows ▸ List.mem_append_left _ inTable, same⟩
  · obtain ⟨id, inSeeds⟩ := @mem_defaults draw data mem
    refine ⟨data.tenant id, rows ▸ List.mem_append_right _ (List.mem_map.mpr ⟨(data, id), ?_, rfl⟩), rfl⟩
    exact List.mem_filter.mpr ⟨inSeeds, by simpa using present⟩

theorem missing_eq_nil {draw : Nat → Uuid} (all : ∀ data ∈ defaultTenants, Present t data) :
    missing t (seedsOf draw) = [] := by
  rw [missing, List.map_eq_nil_iff, List.filter_eq_nil_iff]
  intro seed mem
  simpa using all seed.1 (data_of_mem mem).1

/-- After any requests and starts of the API, their identifiers drawn once, a seeding adds
exactly the default tenants whose slugs are free, in order, and then all of them are there; or
it raises, when the name of one of these is in use, and leaves the table as it was. -/
theorem seeding_settles (events : List Event) (draw : Nat → Uuid)
    (fresh : (idsOf (events ++ [.start draw])).Nodup) :
    ((∃ data ∈ defaultTenants, Blocked (tableAfterEvents events) data) →
      seed draw (tableAfterEvents events) =
        (.error (.database .uniqueViolation), tableAfterEvents events)) ∧
    ((∀ data ∈ defaultTenants, ¬ Blocked (tableAfterEvents events) data) →
      (seed draw (tableAfterEvents events)).1 = .ok () ∧
      (seed draw (tableAfterEvents events)).2.rows =
        (tableAfterEvents events).rows ++ missing (tableAfterEvents events) (seedsOf draw) ∧
      ∀ data ∈ defaultTenants, Present (seed draw (tableAfterEvents events)).2 data) := by
  have unused := fresh_after fresh
  have ids : idsOf [.start draw] = (Event.start draw).ids := List.append_nil _
  rcases seed_cases (ids ▸ unused.unused) (ids ▸ unused.distinct) with
    ⟨free, ok, rows⟩ | ⟨⟨data, mem, blocked⟩, raised⟩
  · refine ⟨?_, fun _ => ⟨ok, rows, present_seeded rows⟩⟩
    rintro ⟨data, mem, blocked⟩
    exact absurd blocked (free data mem)
  · exact ⟨fun _ => raised, fun free => absurd blocked (free data mem)⟩

/-- A library of the town that has the name of a default tenant. -/
def namesake : Call := ⟨5, ⟨"University Library", "town-library", by decide⟩⟩

theorem rows_namesake : (tableAfterEvents [.create namesake]).rows = [namesake.tenant] := rfl

theorem rows_north : (tableAfterEvents [.create northCall]).rows = [northCall.tenant] := rfl

theorem seeding_beside_namesake :
    seed (· + 10) (tableAfterEvents [.create namesake]) =
        (.error (.database .uniqueViolation), tableAfterEvents [.create namesake]) ∧
      (seed (· + 10) (tableAfterEvents [.create northCall])).1 = .ok () ∧
      (seed (· + 10) (tableAfterEvents [.create northCall])).2.rows =
        (tableAfterEvents [.create northCall]).rows ++
          missing (tableAfterEvents [.create northCall]) (seedsOf (· + 10)) := by
  have blocked : ∃ data ∈ defaultTenants, Blocked (tableAfterEvents [.create namesake]) data := by
    simp only [Blocked, Present, rows_namesake]
    decide
  have free : ∀ data ∈ defaultTenants, ¬ Blocked (tableAfterEvents [.create northCall]) data := by
    simp only [Blocked, Present, rows_north]
    decide
  have apart := (seeding_settles [.create northCall] (· + 10) (by decide)).2 free
  exact ⟨(seeding_settles [.create namesake] (· + 10) (by decide)).1 blocked, apart.1, apart.2.1⟩

/-- Where identifiers are drawn once: once a seeding has not raised, every later one, whatever
was requested in between, does nothing and does not raise. As long as a default tenant is
blocked and nobody asks for its slug, every seeding raises and leaves the table. -/
theorem seeding_persists (events later : List Event) (draw again : Nat → Uuid)
    (fresh : (idsOf (events ++ .start draw :: (later ++ [.start again]))).Nodup) :
    ((seed draw (tableAfterEvents events)).1 = .ok () →
      seed again (tableAfterEvents (events ++ .start draw :: later)) =
        (.ok (), tableAfterEvents (events ++ .start draw :: later))) ∧
    (∀ data ∈ defaultTenants, Blocked (tableAfterEvents events) data →
      (∀ call, .create call ∈ later → call.body.slug ≠ data.slug) →
      seed again (tableAfterEvents (events ++ .start draw :: later)) =
        (.error (.database .uniqueViolation), tableAfterEvents (events ++ .start draw :: later))) := by
  have unused : Fresh (tableAfterEvents events) ((.start draw :: later) ++ [.start again]) :=
    fresh_after fresh
  have ids : idsOf [.start again] = (Event.start again).ids := List.append_nil _
  rw [afterAll_append]
  constructor
  · intro ok
    -- all are there after the first seeding, and stay
    have all : ∀ data ∈ defaultTenants, Present ((Event.start draw).after (tableAfterEvents events)) data := by
      have effect := unused.effect
      rcases seed_cases (fun tenant mem drawn => unused.unused tenant mem (List.mem_append_left _ drawn))
        (List.nodup_append.mp unused.distinct).1 with ⟨-, -, rows⟩ | ⟨-, raised⟩
      · exact present_seeded rows
      · rw [raised] at ok
        cases ok
    obtain ⟨present, next⟩ := unused.next.run
      (fun t => ∀ data ∈ defaultTenants, Present t data)
      (fun t event rest fresh _ present data mem => present_effect fresh.effect (present data mem)) all
    rcases seed_cases (ids ▸ next.unused) (ids ▸ next.distinct) with
      ⟨-, ended, rows⟩ | ⟨⟨data, mem, absent, -⟩, -⟩
    · refine Prod.ext ended (Table.ext (rows.trans ?_))
      rw [missing_eq_nil present, List.append_nil]
      rfl
    · exact absurd (present data mem) absent
  · intro data mem blocked elsewhere
    have untouched (call : Call) (inLater : Event.create call ∈ Event.start draw :: later) :
        call.body.slug ≠ data.slug := by
      rcases List.mem_cons.mp inLater with first | inLater
      · cases first
      · exact elsewhere call inLater
    obtain ⟨still, next⟩ := unused.run (fun t => Blocked t data)
      (fun t event rest fresh inside blocked => blocked_effect fresh.effect mem
        (fun call is => untouched call (is ▸ inside)) blocked) blocked
    rcases seed_cases (ids ▸ next.unused) (ids ▸ next.distinct) with ⟨free, -, -⟩ | ⟨-, raised⟩
    · exact absurd still (free data mem)
    · exact raised

/-- The namesake is created after the first start, or before it. -/
theorem seedings_around_namesake :
    seed (· + 20) (tableAfterEvents ([] ++ .start (· + 10) :: [.create namesake])) =
        (.ok (), tableAfterEvents ([] ++ .start (· + 10) :: [.create namesake])) ∧
      seed (· + 20) (tableAfterEvents ([.create namesake] ++ .start (· + 10) :: [.create northCall])) =
        (.error (.database .uniqueViolation),
          tableAfterEvents ([.create namesake] ++ .start (· + 10) :: [.create northCall])) := by
  have ok : (seed (· + 10) (tableAfterEvents [])).1 = .ok () := by
    have noRow : ∀ tenant ∈ (tableAfterEvents []).rows, False := fun _ => List.not_mem_nil
    rcases @seed_cases (· + 10) _ (fun tenant mem => absurd (noRow tenant mem) id) (by decide) with
      ⟨-, ok, -⟩ | ⟨⟨_, -, -, tenant, mem, -⟩, -⟩
    · exact ok
    · exact absurd (noRow tenant mem) id
  have blocked : Blocked (tableAfterEvents [.create namesake])
      ⟨"University Library", "university-library"⟩ := by
    simp only [Blocked, Present, rows_namesake]
    decide
  have elsewhere : ∀ call, Event.create call ∈ [Event.create northCall] →
      call.body.slug ≠ "university-library" := by
    intro call mem
    obtain rfl := Event.create.inj (List.mem_singleton.mp mem)
    decide
  exact ⟨(seeding_persists [] [.create namesake] (· + 10) (· + 20) (by decide)).1 ok,
    (seeding_persists [.create namesake] [.create northCall] (· + 10) (· + 20) (by decide)).2
      ⟨"University Library", "university-library"⟩ (by decide) blocked elsewhere⟩

end TenantLibrary.Tenants
