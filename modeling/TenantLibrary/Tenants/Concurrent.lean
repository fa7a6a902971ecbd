import Mathlib.Algebra.Order.Ring.Nat
import TenantLibrary.Lib.Run
import TenantLibrary.Lib.UniqueInserts
import TenantLibrary.Tenants.Creation

/-!
Requests to create tenants, at the same time.

The statements of any number of `create_tenant` calls interleave under READ COMMITTED: the
look-up, the `INSERT` with its way through the unique indexes, the commit, the look-up of
the row. A call can be lost at any point, and its transaction is rolled back unless it was
committed. Every interleaving leaves the table that the calls whose rows were committed
leave one after the other (`creations_serialize`), every answer has its reason, and the
calls never wait for each other in a circle (`creations_end`).
-/

namespace TenantLibrary.Tenants.Concurrent

open TenantLibrary.Lib TenantLibrary.Store

/-! ### The requests -/

/-- The answer of `create_tenant`. -/
abbrev Answer := Except (SessionError DbError Raised) Tenant

/-- Where a call stands. Only proofs read `looked`, the number of tenants committed when it
looked. -/
inductive Progress where
  | looking
  /-- no tenant was found -/
  | adding (looked : Nat)
  | entering (insertion : Insertion Tenant) (looked : Nat)
  | refreshing (row : Tenant) (looked : Nat)
  | ended (answer : Answer) (looked : Nat)
  /-- the connection is lost; with the row if it was committed -/
  | lost (stored : Option Tenant)
deriving DecidableEq

structure Request where
  call : Call
  progress : Progress

structure World where
  /-- the tenants committed, in the order of the commits -/
  committed : List Tenant
  requests : List Request

inductive Action where
  | arrive (call : Call)
  | advance (k : Nat)
  | lose (k : Nat)

namespace Progress

def insertion : Progress → Option (Insertion Tenant)
  | .entering insertion _ => some insertion
  | _ => none

/-- The row of a call whose transaction was committed. -/
def stored : Progress → Option Tenant
  | .refreshing row _ => some row
  | .ended (.ok row) _ => some row
  | .lost stored => stored
  | _ => none

def isEnded : Progress → Bool
  | .ended .. | .lost _ => true
  | _ => false

end Progress

/-! ### The statements -/

/-- The primary key, `name` and `slug`. -/
def indexes : List (UniqueIndex Tenant) := [.on (·.id), .on (·.name), .on (·.slug)]

/-- The tenants the query of the endpoint finds. -/
def found (rows : List Tenant) (body : TenantCreate) : List Tenant :=
  rows.filter fun tenant => tenant.slug = body.slug ∨ tenant.name = body.name

/-- The look-up, up to `session.add`. -/
def look (committed : List Tenant) (body : TenantCreate) : Progress :=
  if '\x00' ∈ body.slug.toList ∨ '\x00' ∈ body.name.toList then
    .ended (.error (.database (.dataError "invalid byte sequence for encoding UTF8")))
      committed.length
  else
    match found committed body with
    | [] => .adding committed.length
    | [existing] =>
        let field := if existing.slug = body.slug then "slug" else "name"
        .ended (.error (.raised (.httpException 409 s!"Tenant with this {field} already exists")))
          committed.length
    | _ :: _ :: _ => .ended (.error (.raised .multipleResultsFound)) committed.length

/-- The row as the columns keep it. -/
def columns (tenant : Tenant) : Except DbError Tenant := do
  let name ← varchar 255 tenant.name
  let slug ← varchar 100 tenant.slug
  return { tenant with name, slug }

/-- The `INSERT` begins. -/
def add (call : Call) (looked : Nat) : Progress :=
  match columns call.tenant with
  | .ok row => .entering ⟨row, 0⟩ looked
  | .error failure => .ended (.error (.database failure)) looked

/-- `session.refresh`. -/
def reread (committed : List Tenant) (call : Call) : Answer :=
  match committed.find? (·.id = call.id) with
  | some row => .ok row
  | none => .error (.raised .couldNotRefresh)

namespace World

def goto (w : World) (k : Nat) (request : Request) (progress : Progress) : World :=
  { w with requests := w.requests.set k { request with progress } }

/-- The insertions of the other calls. -/
def others (w : World) (k : Nat) : List (Insertion Tenant) :=
  (w.requests.eraseIdx k).filterMap (·.progress.insertion)

/-- The next statement of a call; `none` when it has to wait or has ended. -/
def advance (w : World) (k : Nat) (request : Request) : Option World :=
  match request.progress with
  | .looking => some (w.goto k request (look w.committed request.call.body))
  | .adding looked => some (w.goto k request (add request.call looked))
  | .entering insertion looked =>
      match indexes[insertion.entered]? with
      | some index =>
          match insertion.entry index w.committed (w.others k) with
          | .enters =>
              some (w.goto k request
                (.entering { insertion with entered := insertion.entered + 1 } looked))
          | .waits => none
          | .fails => some (w.goto k request (.ended (.error (.database .uniqueViolation)) looked))
      | none =>
          some { w.goto k request (.refreshing insertion.row looked) with
            committed := w.committed ++ [insertion.row] }
  | .refreshing _ looked =>
      some (w.goto k request (.ended (reread w.committed request.call) looked))
  | .ended .. | .lost _ => none

def step (w : World) : Action → Option World
  | .arrive call => some { w with requests := w.requests ++ [⟨call, .looking⟩] }
  | .advance k => w.requests[k]?.bind (w.advance k)
  | .lose k => w.requests[k]?.bind fun request =>
      if request.progress.isEnded then none
      else some (w.goto k request (.lost request.progress.stored))

/-- Nobody has called yet. -/
def start (t : TenantTable) : World := ⟨t.rows, []⟩

/-- The insertion of each call. -/
def insertions (w : World) : Insertions Tenant :=
  fun k => w.requests[k]?.bind (·.progress.insertion)

end World

/-! ### What a step does -/

/-- What becomes of a call and of the table. -/
inductive Next (w : World) (k : Nat) (call : Call) : Progress → Progress → List Tenant → Prop where
  | looks : Next w k call .looking (look w.committed call.body) w.committed
  | adds (looked : Nat) : Next w k call (.adding looked) (add call looked) w.committed
  | enters (insertion : Insertion Tenant) (looked : Nat) (index : UniqueIndex Tenant)
      (at_ : indexes[insertion.entered]? = some index)
      (free : insertion.entry index w.committed (w.others k) = .enters) :
      Next w k call (.entering insertion looked)
        (.entering { insertion with entered := insertion.entered + 1 } looked) w.committed
  | fails (insertion : Insertion Tenant) (looked : Nat) (index : UniqueIndex Tenant)
      (at_ : indexes[insertion.entered]? = some index)
      (taken : insertion.entry index w.committed (w.others k) = .fails) :
      Next w k call (.entering insertion looked)
        (.ended (.error (.database .uniqueViolation)) looked) w.committed
  | commits (insertion : Insertion Tenant) (looked : Nat)
      (all : indexes[insertion.entered]? = none) :
      Next w k call (.entering insertion looked) (.refreshing insertion.row looked)
        (w.committed ++ [insertion.row])
  | refreshes (row : Tenant) (looked : Nat) :
      Next w k call (.refreshing row looked) (.ended (reread w.committed call) looked) w.committed
  | loses (progress : Progress) (going : progress.isEnded = false) :
      Next w k call progress (.lost progress.stored) w.committed

variable {w v : World} {k : Nat} {request : Request} {call : Call}

theorem advance_next (advanced : w.advance k request = some v) :
    ∃ progress committed, Next w k request.call request.progress progress committed ∧
      v = ⟨committed, w.requests.set k { request with progress }⟩ := by
  unfold World.advance at advanced
  split at advanced
  case h_1 is =>
    obtain rfl := Option.some.inj advanced
    exact ⟨_, _, is ▸ .looks, rfl⟩
  case h_2 looked is =>
    obtain rfl := Option.some.inj advanced
    exact ⟨_, _, is ▸ .adds looked, rfl⟩
  case h_3 insertion looked is =>
    split at advanced
    case h_1 index at_ =>
      split at advanced
      case h_1 free =>
        obtain rfl := Option.some.inj advanced
        exact ⟨_, _, is ▸ .enters insertion looked index at_ free, rfl⟩
      case h_2 => cases advanced
      case h_3 taken =>
        obtain rfl := Option.some.inj advanced
        exact ⟨_, _, is ▸ .fails insertion looked index at_ taken, rfl⟩
    case h_2 all =>
      obtain rfl := Option.some.inj advanced
      exact ⟨_, _, is ▸ .commits insertion looked all, rfl⟩
  case h_4 row looked is =>
    obtain rfl := Option.some.inj advanced
    exact ⟨_, _, is ▸ .refreshes row looked, rfl⟩
  case h_5 => cases advanced
  case h_6 => cases advanced

/-- A step adds a call, or takes one call on. -/
theorem step_cases {action : Action} (stepped : w.step action = some v) :
    (∃ call, action = .arrive call ∧ v = ⟨w.committed, w.requests ++ [⟨call, .looking⟩]⟩) ∨
    ∃ k request progress committed, w.requests[k]? = some request ∧
      Next w k request.call request.progress progress committed ∧
      (action = .advance k ∨ action = .lose k) ∧
      v = ⟨committed, w.requests.set k { request with progress }⟩ := by
  cases action with
  | arrive call => exact .inl ⟨call, rfl, (Option.some.inj stepped).symm⟩
  | advance k =>
      obtain ⟨request, there, advanced⟩ := Option.bind_eq_some_iff.mp stepped
      obtain ⟨progress, committed, next, is⟩ := advance_next advanced
      exact .inr ⟨k, request, progress, committed, there, next, .inl rfl, is⟩
  | lose k =>
      obtain ⟨request, there, lost⟩ := Option.bind_eq_some_iff.mp stepped
      split at lost
      · cases lost
      case isFalse going =>
        have next : Next w k request.call request.progress _ _ :=
          .loses _ (Bool.eq_false_iff.mpr going)
        exact .inr ⟨k, request, _, _, there, next, .inr rfl, (Option.some.inj lost).symm⟩

/-! ### Insertions -/

theorem insertions_arrive (committed : List Tenant) (requests : List Request) (call : Call) :
    World.insertions ⟨committed, requests ++ [⟨call, .looking⟩]⟩ =
      World.insertions ⟨committed, requests⟩ :=
  perTransaction_append (fun request : Request => request.progress.insertion) requests rfl

theorem insertions_set (committed : List Tenant) (there : w.requests[k]? = some request)
    (progress : Progress) :
    World.insertions ⟨committed, w.requests.set k { request with progress }⟩ =
      Function.update w.insertions k progress.insertion :=
  perTransaction_set (fun request : Request => request.progress.insertion) there _

theorem othersOf (w : World) (k : Nat) : OthersOf w.insertions k (w.others k) :=
  othersOf_perTransaction (fun request : Request => request.progress.insertion) w.requests k

/-- The rows stay apart in the indexes they have been entered into. -/
theorem apart_step {action : Action} (stepped : w.step action = some v)
    (apart : Apart indexes w.committed w.insertions) :
    Apart indexes v.committed v.insertions := by
  rcases step_cases stepped with ⟨call, rfl, rfl⟩ | ⟨k, request, progress, committed, there, next, -, rfl⟩
  · rw [insertions_arrive]
    exact apart
  · rw [insertions_set committed there]
    have inserting {insertion : Insertion Tenant} {looked : Nat}
        (is : request.progress = .entering insertion looked) : w.insertions k = some insertion := by
      simp [World.insertions, there, is, Progress.insertion]
    generalize isProgress : request.progress = before at next
    cases next with
    | looks =>
        unfold look
        split
        · exact apart.drop k
        · split <;> exact apart.drop k
    | adds looked =>
        unfold add
        split
        · exact apart.begin k _
        · exact apart.drop k
    | enters insertion looked index at_ free =>
        exact apart.enter (inserting isProgress) at_ (othersOf w k) free
    | fails => exact apart.drop k
    | commits insertion looked all =>
        exact apart.commit (inserting isProgress) (List.getElem?_eq_none_iff.mp all)
    | refreshes => exact apart.drop k
    | loses => exact apart.drop k

/-! ### The columns -/

theorem columns_eq_ok {tenant row : Tenant} : columns tenant = .ok row ↔
    ∃ name, varchar 255 tenant.name = .ok name ∧ ∃ slug, varchar 100 tenant.slug = .ok slug ∧
      row = { tenant with name, slug } := by
  have returned (name slug : String) :
      (pure { tenant with name, slug } : Except DbError Tenant) = .ok row ↔
        row = { tenant with name, slug } := by
    simp [pure, Except.pure, eq_comm]
  simp only [columns, bind_eq_ok, returned]

theorem dataError_of_columns {tenant : Tenant} {failure : DbError}
    (refused : columns tenant = .error failure) : ∃ message, failure = .dataError message := by
  unfold columns at refused
  cases named : varchar 255 tenant.name with
  | error other =>
      rw [named] at refused
      have same : (Except.error other : Except DbError Tenant) = .error failure := refused
      exact dataError_of_varchar (Except.error.inj same ▸ named)
  | ok name =>
      cases slugged : varchar 100 tenant.slug with
      | error other =>
          rw [named, slugged] at refused
          have same : (Except.error other : Except DbError Tenant) = .error failure := refused
          exact dataError_of_varchar (Except.error.inj same ▸ slugged)
      | ok slug =>
          rw [named, slugged] at refused
          cases refused

/-- Nothing is cut off a slug. -/
theorem slug_of_columns {row : Tenant} (stored : columns call.tenant = .ok row) :
    row.slug = call.body.slug := by
  obtain ⟨name, -, slug, slugged, rfl⟩ := columns_eq_ok.mp stored
  have whole : cut 100 call.body.slug = call.body.slug := cut_of_last fun c last => by
    rintro rfl
    have symbol := mem_slug call.body (List.mem_of_mem_getLast? last)
    simp [slugChar] at symbol
  exact (varchar_eq_ok_iff.mp slugged).2.trans whole

/-- A name that is changed is longer than the column. -/
theorem long_of_columns {row : Tenant} (stored : columns call.tenant = .ok row)
    (changed : row.name ≠ call.body.name) (noNul : '\x00' ∉ call.body.name.toList) :
    255 < call.body.name.toList.length := by
  obtain ⟨name, named, slug, -, rfl⟩ := columns_eq_ok.mp stored
  by_contra short
  have whole := varchar_eq_ok.mpr ⟨noNul, Nat.le_of_not_lt short⟩
  exact changed (Except.ok.inj (named.symm.trans whole))

theorem narrow_of_columns {row : Tenant} (stored : columns call.tenant = .ok row) :
    row.name.toList.length ≤ 255 := by
  obtain ⟨name, named, slug, -, rfl⟩ := columns_eq_ok.mp stored
  obtain ⟨fits, rfl⟩ := varchar_eq_ok_iff.mp named
  exact (fitsColumn_iff.mp fits).1

/-! ### Answers and their reasons -/

/-- The call looked when so many tenants were committed, and none of them had its name or slug. -/
structure FoundNobody (committed : List Tenant) (call : Call) (looked : Nat) : Prop where
  noNul : '\x00' ∉ call.body.name.toList
  past : looked ≤ committed.length
  nobody : found (committed.take looked) call.body = []

/-- The call has put its row into the table. -/
structure Stored (committed : List Tenant) (call : Call) (row : Tenant) : Prop where
  kept : columns call.tenant = .ok row
  mem : row ∈ committed

/-- Why the row of a call that found nobody has no place in the table: a tenant committed since,
an identifier drawn twice, or a name that was not in use until the column cut it. -/
inductive Taken (committed : List Tenant) (call : Call) (looked : Nat) : Prop where
  | since (row other : Tenant) (stored : columns call.tenant = .ok row)
      (mem : other ∈ committed.drop looked) (clash : other.Clash row)
  | drawn (other : Tenant) (mem : other ∈ committed.take looked) (same : other.id = call.id)
  | cut (row other : Tenant) (stored : columns call.tenant = .ok row)
      (mem : other ∈ committed.take looked) (same : other.name = row.name)
      (long : 255 < call.body.name.toList.length)

/-- The reason of each answer; what is not listed is no answer. -/
def Justified (committed : List Tenant) (call : Call) (looked : Nat) : Answer → Prop
  | .ok row => Stored committed call row
  | .error (.raised (.httpException status detail)) => status = 409 ∧
      ∃ tenant, found (committed.take looked) call.body = [tenant] ∧
        detail = if tenant.slug = call.body.slug then "Tenant with this slug already exists"
          else "Tenant with this name already exists"
  | .error (.raised .multipleResultsFound) =>
      ∃ a ∈ committed.take looked, ∃ b ∈ committed.take looked,
        a ≠ b ∧ a.slug = call.body.slug ∧ b.name = call.body.name
  | .error (.database .uniqueViolation) => Taken committed call looked
  | .error (.database (.dataError message)) => columns call.tenant = .error (.dataError message)
  | _ => False

/-- What holds of a call at each point. -/
def Kept (committed : List Tenant) (request : Request) : Prop :=
  match request.progress with
  | .looking => True
  | .adding looked => FoundNobody committed request.call looked
  | .entering insertion looked => FoundNobody committed request.call looked ∧
      columns request.call.tenant = .ok insertion.row
  | .refreshing row looked => Stored committed request.call row ∧ looked ≤ committed.length
  | .ended answer looked => Justified committed request.call looked answer ∧ looked ≤ committed.length
  | .lost stored => ∀ row, stored = some row → Stored committed request.call row

section

variable {committed more : List Tenant} {looked : Nat}

theorem take_append_more (past : looked ≤ committed.length) :
    (committed ++ more).take looked = committed.take looked :=
  List.take_append_of_le_length past

theorem FoundNobody.append (nobody : FoundNobody committed call looked) (more : List Tenant) :
    FoundNobody (committed ++ more) call looked :=
  ⟨nobody.noNul, nobody.past.trans (by simp), by rw [take_append_more nobody.past]; exact nobody.nobody⟩

theorem Stored.append {row : Tenant} (stored : Stored committed call row) (more : List Tenant) :
    Stored (committed ++ more) call row :=
  ⟨stored.kept, List.mem_append_left more stored.mem⟩

theorem Taken.append (taken : Taken committed call looked) (past : looked ≤ committed.length)
    (more : List Tenant) : Taken (committed ++ more) call looked := by
  cases taken with
  | since row other stored mem clash =>
      refine .since row other stored ?_ clash
      rw [List.drop_append_of_le_length past]
      exact List.mem_append_left more mem
  | drawn other mem same => exact .drawn other (by rwa [take_append_more past]) same
  | cut row other stored mem same long =>
      exact .cut row other stored (by rwa [take_append_more past]) same long

theorem Justified.append {answer : Answer} (justified : Justified committed call looked answer)
    (past : looked ≤ committed.length) (more : List Tenant) :
    Justified (committed ++ more) call looked answer := by
  unfold Justified at justified ⊢
  split at justified
  · exact Stored.append justified more
  · rwa [take_append_more past]
  · rwa [take_append_more past]
  · exact Taken.append justified past more
  · exact justified
  · exact justified.elim

theorem Kept.append (kept : Kept committed request) (more : List Tenant) :
    Kept (committed ++ more) request := by
  unfold Kept at kept ⊢
  split at kept
  · trivial
  · exact FoundNobody.append kept more
  · exact ⟨kept.1.append more, kept.2⟩
  · exact ⟨kept.1.append more, kept.2.trans (by simp)⟩
  · exact ⟨kept.1.append kept.2 more, kept.2.trans (by simp)⟩
  · exact fun row is => (kept row is).append more

end

/-! ### A call's step -/

theorem not_clash_of_apart {a b : Tenant} (apart : ∀ index ∈ indexes, ¬ index.Clash a b) :
    ¬ a.Clash b := by
  rintro (sameId | sameName | sameSlug)
  · exact apart (.on (·.id)) (by simp [indexes]) sameId
  · exact apart (.on (·.name)) (by simp [indexes]) sameName
  · exact apart (.on (·.slug)) (by simp [indexes]) sameSlug

/-- The rows committed, as a table. -/
def Apart.table {committed : List Tenant} {insertions : Insertions Tenant}
    (apart : Apart indexes committed insertions) : TenantTable :=
  ⟨committed, apart.rows.imp not_clash_of_apart⟩

theorem kept_look {committed : List Tenant} {insertions : Insertions Tenant}
    (apart : Apart indexes committed insertions) (call : Call) :
    Kept committed ⟨call, look committed call.body⟩ := by
  have all : committed.take committed.length = committed := List.take_length
  unfold look
  split
  case isTrue nul =>
    have nul : '\x00' ∈ call.body.name.toList := nul.resolve_left (slug_noNul call.body)
    have refused : varchar 255 call.tenant.name =
        .error (.dataError "invalid byte sequence for encoding UTF8") := varchar_of_nul nul
    refine ⟨?_, le_rfl⟩
    simp only [Justified, columns, refused]
    rfl
  case isFalse noNul =>
    rw [not_or] at noNul
    split
    case h_1 nobody => exact ⟨noNul.2, le_rfl, by rw [all]; exact nobody⟩
    case h_2 tenant only =>
      refine ⟨⟨rfl, tenant, by rw [all]; exact only, ?_⟩, le_rfl⟩
      by_cases same : tenant.slug = call.body.slug <;> simp [same] <;> rfl
    case h_3 a b rest more =>
      have found : existing (Apart.table apart) call.body = a :: b :: rest := more
      obtain ⟨u, memU, v, memV, slug, name, ne⟩ := exists_apart found
      refine ⟨⟨u, ?_, v, ?_, ne, slug, name⟩, le_rfl⟩ <;> rw [all]
      · exact memU
      · exact memV

theorem kept_add {committed : List Tenant} {looked : Nat}
    (nobody : FoundNobody committed call looked) : Kept committed ⟨call, add call looked⟩ := by
  unfold add
  split
  case h_1 row stored => exact ⟨nobody, stored⟩
  case h_2 failure refused =>
    obtain ⟨message, rfl⟩ := dataError_of_columns refused
    exact ⟨refused, nobody.past⟩

theorem kept_fails {committed : List Tenant} {insertion : Insertion Tenant} {looked : Nat}
    {index : UniqueIndex Tenant} {others : List (Insertion Tenant)}
    (nobody : FoundNobody committed call looked)
    (stored : columns call.tenant = .ok insertion.row)
    (at_ : indexes[insertion.entered]? = some index)
    (fails : insertion.entry index committed others = .fails) :
    Kept committed ⟨call, .ended (.error (.database .uniqueViolation)) looked⟩ := by
  obtain ⟨other, mem, clash⟩ := Insertion.entry_eq_fails.mp fails
  refine ⟨?_, nobody.past⟩
  have sameId : insertion.row.id = call.id := by
    obtain ⟨name, -, slug, -, row⟩ := columns_eq_ok.mp stored
    rw [row]
    rfl
  rw [← List.take_append_drop looked committed] at mem
  rcases List.mem_append.mp mem with before | since
  · -- one of the tenants that the look-up did not find
    have apart : ¬ (other.slug = call.body.slug ∨ other.name = call.body.name) := by
      intro same
      have mem : other ∈ found (committed.take looked) call.body :=
        List.mem_filter.mpr ⟨before, decide_eq_true same⟩
      rw [nobody.nobody] at mem
      exact List.not_mem_nil mem
    rcases List.mem_of_getElem? at_ with _ | ⟨_, _ | ⟨_, _ | ⟨_, ⟨⟩⟩⟩⟩
    · exact .drawn other before (Eq.trans clash sameId)
    · have same : other.name = insertion.row.name := clash
      refine .cut insertion.row other stored before same (long_of_columns stored ?_ nobody.noNul)
      exact fun whole => apart (.inr (same.trans whole))
    · have same : other.slug = insertion.row.slug := clash
      exact absurd (.inl (same.trans (slug_of_columns stored))) apart
  · refine .since insertion.row other stored since ?_
    rcases List.mem_of_getElem? at_ with _ | ⟨_, _ | ⟨_, _ | ⟨_, ⟨⟩⟩⟩⟩
    · exact .inl clash
    · exact .inr (.inl clash)
    · exact .inr (.inr clash)

theorem reread_stored {committed : List Tenant} {insertions : Insertions Tenant}
    (apart : Apart indexes committed insertions) {row : Tenant} (stored : Stored committed call row) :
    reread committed call = .ok row := by
  have sameId : row.id = call.id := by
    obtain ⟨name, -, slug, -, is⟩ := columns_eq_ok.mp stored.kept
    rw [is]
    rfl
  have found : committed.find? (·.id = call.id) = some row :=
    (Apart.table apart).find?_of_mem
      (fun a b isA isB => .inl ((of_decide_eq_true isA).trans (of_decide_eq_true isB).symm))
      stored.mem (decide_eq_true sameId)
  rw [reread, found]

/-- What a call does keeps what holds of it. -/
theorem kept_next {progress : Progress} {committed : List Tenant}
    (apart : Apart indexes w.committed w.insertions)
    (kept : Kept w.committed request)
    (next : Next w k request.call request.progress progress committed) :
    Kept committed ⟨request.call, progress⟩ := by
  unfold Kept at kept
  generalize request.progress = before at next kept
  cases next with
  | looks => exact kept_look apart request.call
  | adds looked => exact kept_add kept
  | enters insertion looked index at_ free => exact kept
  | fails insertion looked index at_ taken => exact kept_fails kept.1 kept.2 at_ taken
  | commits insertion looked all =>
      exact ⟨⟨kept.2, List.mem_append_right _ (List.mem_singleton.mpr rfl)⟩,
        kept.1.past.trans (by simp)⟩
  | refreshes row looked =>
      rw [reread_stored apart kept.1]
      exact kept
  | loses =>
      intro row is
      cases before with
      | refreshing row' looked =>
          obtain rfl := Option.some.inj is
          exact kept.1
      | ended answer looked =>
          cases answer with
          | ok row' =>
              obtain rfl := Option.some.inj is
              exact kept.1
          | error failure => cases is
      | lost stored => exact kept row is
      | looking | adding looked | entering insertion looked => cases is

/-! ### One after the other -/

/-- The table after calls one after the other. -/
def tableFrom (t : TenantTable) (calls : List Call) : TenantTable :=
  calls.foldl (fun t call => (call.run t).2) t

/-- The calls whose rows were committed. -/
def storedCalls (requests : List Request) : List Call :=
  requests.filterMap fun request => request.progress.stored.map fun _ => request.call

/-- A call whose row has come through all the indexes puts the same row into the table when it
runs alone. -/
theorem run_alone {t : TenantTable} {row : Tenant}
    (narrow : ∀ tenant ∈ t.rows, tenant.name.toList.length ≤ 255)
    (noNul : '\x00' ∉ call.body.name.toList) (stored : columns call.tenant = .ok row)
    (free : ∀ a ∈ t.rows, ¬ a.Clash row) :
    (call.run t).1 = .ok row ∧ (call.run t).2.rows = t.rows ++ [row] := by
  obtain ⟨after, inserted⟩ := Table.exists_insert free
  obtain ⟨name, named, slug, slugged, isRow⟩ := columns_eq_ok.mp stored
  have insert : insertTenant call.tenant t = .ok after :=
    insertTenant_eq_ok.mpr ⟨name, named, slug, slugged, isRow ▸ inserted⟩
  have nobody : existing t call.body = [] := by
    refine not_inUse_iff.mp ?_
    rintro ⟨tenant, mem, sameSlug | sameName⟩
    · exact free tenant mem (.inr (.inr (sameSlug.trans (slug_of_columns stored).symm)))
    · by_cases whole : row.name = call.body.name
      · exact free tenant mem (.inr (.inl (sameName.trans whole.symm)))
      · have long := long_of_columns stored whole noNul
        have short := narrow tenant mem
        rw [sameName] at short
        omega
  have read : after.rows.find? (·.id = call.id) = some row := by
    have sameId : row.id = call.id := by rw [isRow]; rfl
    rw [← sameId]
    exact find?_inserted inserted
  rw [run_inserted noNul nobody insert read]
  exact ⟨rfl, (Table.insert_eq_some.mp inserted).2⟩

/-- What holds in every interleaving. -/
structure Inv (t : TenantTable) (w : World) : Prop where
  apart : Apart indexes w.committed w.insertions
  narrow : ∀ tenant ∈ w.committed, tenant.name.toList.length ≤ 255
  kept : ∀ request ∈ w.requests, Kept w.committed request
  serial : ∃ order : List Call, order.Perm (storedCalls w.requests) ∧
    (tableFrom t order).rows = w.committed

variable {t : TenantTable}

theorem inv_start (narrow : ∀ tenant ∈ t.rows, tenant.name.toList.length ≤ 255) :
    Inv t (World.start t) where
  apart :=
    { rows := t.distinct.imp fun apart index mem clash => by
        simp only [indexes, List.mem_cons, List.not_mem_nil, or_false] at mem
        rcases mem with rfl | rfl | rfl
        · exact apart (.inl clash)
        · exact apart (.inr (.inl clash))
        · exact apart (.inr (.inr clash))
      entered := fun k own is => by simp [World.insertions, World.start] at is
      open_ := fun k own k' other is => by simp [World.insertions, World.start] at is }
  narrow := narrow
  kept := fun request mem => absurd mem List.not_mem_nil
  serial := ⟨[], .nil, rfl⟩

theorem storedCalls_append (before : List Request) (request : Request) (after : List Request) :
    storedCalls (before ++ request :: after) = storedCalls before ++
      ((request.progress.stored.map fun _ => request.call).toList ++ storedCalls after) := by
  rw [storedCalls, List.filterMap_append, List.filterMap_cons]
  cases request.progress.stored <;> rfl

/-- Either a row is committed, and its call is one more of those, or neither changes. -/
theorem stored_next {progress : Progress} {committed : List Tenant}
    (apart : Apart indexes w.committed w.insertions) (kept : Kept w.committed request)
    (next : Next w k request.call request.progress progress committed) :
    (∃ insertion looked, request.progress = .entering insertion looked ∧
      indexes.length ≤ insertion.entered ∧ committed = w.committed ++ [insertion.row] ∧
      progress = .refreshing insertion.row looked) ∨
    committed = w.committed ∧ progress.stored.isSome = request.progress.stored.isSome := by
  unfold Kept at kept
  generalize request.progress = before at next kept
  cases next with
  | looks =>
      refine .inr ⟨rfl, ?_⟩
      unfold look
      split
      · rfl
      · split <;> rfl
  | adds looked =>
      refine .inr ⟨rfl, ?_⟩
      unfold add
      split <;> rfl
  | enters insertion looked index at_ free => exact .inr ⟨rfl, rfl⟩
  | fails insertion looked index at_ taken => exact .inr ⟨rfl, rfl⟩
  | commits insertion looked all =>
      exact .inl ⟨insertion, looked, rfl, List.getElem?_eq_none_iff.mp all, rfl, rfl⟩
  | refreshes row looked =>
      refine .inr ⟨rfl, ?_⟩
      rw [reread_stored apart kept.1]
      rfl
  | loses => exact .inr ⟨rfl, rfl⟩

theorem inv_step {action : Action} (inv : Inv t w) (stepped : w.step action = some v) : Inv t v := by
  have apart := apart_step stepped inv.apart
  rcases step_cases stepped with ⟨call, rfl, rfl⟩ | ⟨k, request, progress, committed, there, next, -, rfl⟩
  · refine ⟨apart, inv.narrow, fun request mem => ?_, ?_⟩
    · rcases List.mem_append.mp mem with old | last
      · exact inv.kept request old
      · obtain rfl := List.mem_singleton.mp last
        trivial
    · simpa [storedCalls, List.filterMap_append, Progress.stored] using inv.serial
  · have mem := List.mem_of_getElem? there
    have kept := kept_next inv.apart (inv.kept request mem) next
    obtain ⟨before, after, isRequests, set⟩ := exists_set_eq there
    obtain ⟨order, perm, serial⟩ := inv.serial
    rcases stored_next inv.apart (inv.kept request mem) next with
      ⟨insertion, looked, is, all, rfl, rfl⟩ | ⟨rfl, same⟩
    · -- the commit of one row
      have entering := inv.kept request mem
      rw [Kept, is] at entering
      have inserting : w.insertions k = some insertion := by
        simp [World.insertions, there, is, Progress.insertion]
      have free : ∀ a ∈ (tableFrom t order).rows, ¬ a.Clash insertion.row := by
        rw [serial]
        exact fun a mem => not_clash_of_apart (inv.apart.free inserting all a mem)
      obtain ⟨-, alone⟩ := run_alone (serial ▸ inv.narrow) entering.1.noNul entering.2 free
      refine ⟨apart, fun tenant mem => ?_, fun other mem => ?_, order ++ [request.call], ?_, ?_⟩
      · rcases List.mem_append.mp mem with old | last
        · exact inv.narrow tenant old
        · obtain rfl := List.mem_singleton.mp last
          exact narrow_of_columns entering.2
      · rcases List.mem_or_eq_of_mem_set mem with old | rfl
        · exact (inv.kept other old).append _
        · exact kept
      · rw [set, storedCalls_append]
        rw [isRequests, storedCalls_append, is] at perm
        have last : (order ++ [request.call]).Perm
            (request.call :: (storedCalls before ++ storedCalls after)) :=
          (perm.append_right [request.call]).trans List.perm_append_comm
        exact last.trans List.perm_middle.symm
      · rw [tableFrom, List.foldl_append]
        exact alone.trans (by rw [serial])
    · refine ⟨apart, inv.narrow, fun other mem => ?_, order, ?_, serial⟩
      · rcases List.mem_or_eq_of_mem_set mem with old | rfl
        · exact inv.kept other old
        · exact kept
      · rw [set, storedCalls_append]
        rw [isRequests, storedCalls_append] at perm
        have calls : (progress.stored.map fun _ => request.call) =
            request.progress.stored.map fun _ => request.call := by
          cases isNew : progress.stored <;> cases isOld : request.progress.stored <;>
            simp_all
        rwa [calls]

theorem inv_run {actions : List Action}
    (narrow : ∀ tenant ∈ t.rows, tenant.name.toList.length ≤ 255)
    (run : Run (Steps World.step) (World.start t) actions w) : Inv t w :=
  run.invariant (Inv t) (fun _ _ _ inv stepped => inv_step inv stepped) (inv_start narrow)

/-- Whatever the interleaving and whatever calls are lost, the tenants committed are those that
the calls whose rows were committed leave, one after the other in some order; and every answer
is the row of the call, or a refusal with its reason. -/
theorem creations_serialize {actions : List Action}
    (narrow : ∀ tenant ∈ t.rows, tenant.name.toList.length ≤ 255)
    (run : Run (Steps World.step) (World.start t) actions w) :
    (∃ order : List Call, order.Perm (storedCalls w.requests) ∧
      (tableFrom t order).rows = w.committed) ∧
    ∀ request ∈ w.requests, ∀ answer looked, request.progress = .ended answer looked →
      Justified w.committed request.call looked answer := by
  have inv := inv_run narrow run
  refine ⟨inv.serial, fun request mem answer looked is => ?_⟩
  have kept := inv.kept request mem
  rw [Kept, is] at kept
  exact kept.1

/-- The same name, twice at the same time, and a third call after them. -/
def twin : Call := ⟨4, ⟨"North Library", "north-2", by decide⟩⟩

/-- Both calls look before the other one adds its row. The second has to wait at the name until
the first is committed, and is then refused by the database; a third gets a 409. -/
def race : List Action :=
  [.arrive northCall, .arrive twin, .advance 0, .advance 1, .advance 0, .advance 1,
    .advance 1, .advance 0, .advance 0, .advance 0, .advance 0, .advance 1,
    .arrive crossedCall, .advance 2, .advance 0]

theorem race_serializes : ∃ w, exec World.step (World.start .empty) race = some w ∧
    w.requests.map (·.progress) =
      [.ended (.ok northCall.tenant) 0, .ended (.error (.database .uniqueViolation)) 0,
        .ended (.error (.raised (.httpException 409 "Tenant with this name already exists"))) 1] ∧
    (∃ order : List Call, order.Perm (storedCalls w.requests) ∧
      (tableFrom .empty order).rows = w.committed) ∧
    ∀ request ∈ w.requests, ∀ answer looked, request.progress = .ended answer looked →
      Justified w.committed request.call looked answer := by
  have traced : (exec World.step (World.start .empty) race).map
      (fun w => w.requests.map (·.progress)) = some
        [.ended (.ok northCall.tenant) 0, .ended (.error (.database .uniqueViolation)) 0,
          .ended (.error (.raised (.httpException 409 "Tenant with this name already exists"))) 1] :=
    rfl
  obtain ⟨w, computed, progress⟩ := Option.map_eq_some_iff.mp traced
  exact ⟨w, computed, progress,
    creations_serialize (fun _ mem => absurd mem List.not_mem_nil) (run_of_exec computed)⟩

/-! ### Nobody waits for ever -/

/-- A bound on the steps a call still takes. -/
def Progress.left : Progress → Nat
  | .looking => 7
  | .adding _ => 6
  | .entering insertion _ => 2 + (indexes.length - insertion.entered)
  | .refreshing .. => 1
  | .ended .. | .lost _ => 0

/-- The same for the call at a place; one that has not arrived has all its steps before it. -/
def World.left (w : World) (k : Nat) : Nat := (w.requests[k]?.map (·.progress.left)).getD 7

/-- Is this a step of the call at `k`? -/
def Action.takes (k : Nat) : Action → Bool
  | .arrive _ => false
  | .advance own | .lose own => own == k

theorem left_le (progress : Progress) : progress.left ≤ 7 := by
  cases progress with
  | entering insertion looked =>
      have length : indexes.length = 3 := rfl
      simp only [Progress.left]
      omega
  | _ => simp [Progress.left]

theorem world_left_le (w : World) (k : Nat) : w.left k ≤ 7 := by
  unfold World.left
  cases w.requests[k]? with
  | none => exact le_rfl
  | some request => exact left_le request.progress

theorem left_next {progress : Progress} {committed : List Tenant}
    (next : Next w k call request.progress progress committed) :
    progress.left < request.progress.left := by
  generalize request.progress = before at next
  cases next with
  | looks =>
      unfold look
      split
      · simp [Progress.left]
      · split <;> simp [Progress.left]
  | adds looked =>
      unfold add
      split <;> simp [Progress.left, indexes]
  | enters insertion looked index at_ free =>
      obtain ⟨inside, -⟩ := List.getElem?_eq_some_iff.mp at_
      simp only [Progress.left]
      omega
  | fails | commits | refreshes => simp [Progress.left] <;> omega
  | loses _ going => cases before <;> simp_all [Progress.left, Progress.isEnded]

/-- A step of a call leaves it fewer steps; the other calls are left the same. -/
theorem left_step {action : Action} (k : Nat) (stepped : w.step action = some v) :
    v.left k + (if action.takes k then 1 else 0) ≤ w.left k := by
  rcases step_cases stepped with
    ⟨call, rfl, rfl⟩ | ⟨own, request, progress, committed, there, next, isOwn, rfl⟩
  · simp only [Action.takes, Bool.false_eq_true, if_false, Nat.add_zero, World.left]
    rcases lt_trichotomy k w.requests.length with inside | rfl | beyond
    · rw [List.getElem?_append_left inside]
    · simp [Progress.left]
    · rw [List.getElem?_eq_none (by simp; omega), List.getElem?_eq_none (by omega)]
  · have less := left_next next
    have inside : own < w.requests.length := (List.getElem?_eq_some_iff.mp there).1
    by_cases same : own = k
    · subst same
      simp only [World.left, List.getElem?_set_self inside, there, Option.map_some, Option.getD_some]
      split <;> omega
    · have notTaken : action.takes k = false := by
        rcases isOwn with rfl | rfl <;> simpa [Action.takes] using same
      simp [World.left, List.getElem?_set_ne same, notTaken]

/-- One of the calls that have not ended does not have to wait. -/
theorem exists_advance (mem : request ∈ w.requests) (going : request.progress.isEnded = false) :
    ∃ k, (w.step (.advance k)).isSome := by
  obtain ⟨k, there⟩ := List.mem_iff_getElem?.mp mem
  by_cases inserting : (w.insertions k).isSome
  · have finite (tx : Nat) (isOpen : (w.insertions tx).isSome) : tx < w.requests.length := by
      obtain ⟨insertion, is⟩ := Option.isSome_iff_exists.mp isOpen
      obtain ⟨owner, at_, -⟩ := Option.bind_eq_some_iff.mp is
      exact (List.getElem?_eq_some_iff.mp at_).1
    obtain ⟨ready, insertion, is, free⟩ := exists_ready finite inserting
    obtain ⟨owner, at_, owns⟩ := Option.bind_eq_some_iff.mp is
    refine ⟨ready, ?_⟩
    cases isProgress : owner.progress with
    | entering insertion' looked =>
        rw [isProgress] at owns
        obtain rfl := Option.some.inj owns
        simp only [World.step, at_, Option.bind_some, World.advance, isProgress]
        split
        case h_1 index _ =>
          have notWaiting := free index w.committed (w.others ready) (othersOf w ready)
          cases isEntry : insertion'.entry index w.committed (w.others ready) with
          | enters | fails => rfl
          | waits => exact absurd isEntry notWaiting
        case h_2 => rfl
    | _ => simp [isProgress, Progress.insertion] at owns
  · refine ⟨k, ?_⟩
    cases isProgress : request.progress with
    | entering insertion looked =>
        simp [World.insertions, there, isProgress, Progress.insertion] at inserting
    | ended answer looked | lost stored => simp [isProgress, Progress.isEnded] at going
    | looking | adding looked | refreshing row looked =>
        simp [World.step, there, World.advance, isProgress]

/-- However the calls go on, and whatever calls come in meanwhile: each takes at most seven
steps more, and as long as one has not ended, some call need not wait. -/
theorem creations_end {actions : List Action} (run : Run (Steps World.step) w actions v) :
    (∀ k, actions.countP (·.takes k) ≤ 7) ∧
      ((∀ k, v.step (.advance k) = none) → ∀ request ∈ v.requests, request.progress.isEnded) := by
  constructor
  · intro k
    have bound := run.countP_add_le (World.left · k) (Action.takes k) fun _ _ _ => left_step k
    have start := world_left_le w k
    have steps : actions.countP (Action.takes k) ≤ 7 := by omega
    exact steps
  · intro stuck request mem
    by_contra going
    obtain ⟨k, enabled⟩ := exists_advance mem (Bool.eq_false_iff.mpr going)
    rw [stuck k] at enabled
    cases enabled

/-- From the point where both calls add their rows; a third comes in before the first has ended. -/
theorem race_ends : ∃ w v, exec World.step (World.start .empty) (race.take 6) = some w ∧
    exec World.step w (race.drop 6) = some v ∧
    (∀ k, (race.drop 6).countP (·.takes k) ≤ 7) ∧
      ((∀ k, v.step (.advance k) = none) → ∀ request ∈ v.requests, request.progress.isEnded) := by
  obtain ⟨w, waits⟩ : ∃ w, exec World.step (World.start .empty) (race.take 6) = some w := ⟨_, rfl⟩
  have goes : ((exec World.step (World.start .empty) (race.take 6)).bind fun w =>
      exec World.step w (race.drop 6)).isSome := rfl
  rw [waits, Option.bind_some] at goes
  obtain ⟨v, computed⟩ := Option.isSome_iff_exists.mp goes
  exact ⟨w, v, waits, computed, creations_end (run_of_exec computed)⟩

end TenantLibrary.Tenants.Concurrent
