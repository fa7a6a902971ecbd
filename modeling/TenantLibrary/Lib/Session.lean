import Mathlib.Tactic.Common
import Mathlib.Control.Lawful

/-!
A unit of work over a transactional store.

A session keeps the committed store, the state of its open transaction and the
writes a program has added but not sent. Every statement first flushes the
pending writes (autoflush). When the store rejects a write, the whole transaction
is rolled back and the session refuses every later statement and commit until
`rollback` is called.

A program that never catches an exception is easier to reason about without
pending writes and failed sessions. `Tracks` relates it to a plain state
transformer on the store in which each write is applied at once; the rules below
follow the structure of programs, and `Tracks.flushed` turns the relation into
the exact end state of a program that ends with a flush.
-/

namespace TenantLibrary.Lib

/-- The store rejects a write, the session waits for a `rollback`, or the
program raises an exception of its own. -/
inductive SessionError (δ ε : Type) where
  | database (rejection : δ)
  | pendingRollback
  | raised (exception : ε)
deriving DecidableEq, Repr

/-- `tx` is what the open transaction reads, `pending` the writes not yet sent. -/
structure Session (Db Write : Type) where
  committed : Db
  tx : Db
  pending : List Write
  failed : Bool
deriving DecidableEq

/-- Programs over a session: an exception leaves the session where it was. -/
abbrev SessionM (Db Write δ ε : Type) := ExceptT (SessionError δ ε) (StateM (Session Db Write))

variable {Db Write δ ε α β : Type}

namespace Session

/-- A session whose transaction has just begun. -/
def opened (db : Db) : Session Db Write := ⟨db, db, [], false⟩

/-- A session after a failed flush. -/
def dead (db : Db) : Session Db Write := ⟨db, db, [], true⟩

end Session

/-- A computation that returns went through a returned value. -/
theorem bind_eq_ok {x : Except δ α} {f : α → Except δ β} {b : β} :
    x >>= f = .ok b ↔ ∃ a, x = .ok a ∧ f a = .ok b := by
  constructor
  · intro returned
    cases x with
    | ok a => exact ⟨a, rfl, returned⟩
    | error e => cases returned
  · rintro ⟨a, rfl, returned⟩
    exact returned

/-- A loop returns when no round raises; each result comes from its own item. -/
theorem mapM_eq_ok_map {body : α → Except δ β} {Good : α → Prop} {result : α → β}
    (each : ∀ a b, body a = .ok b ↔ Good a ∧ b = result a) {items : List α} {results : List β} :
    items.mapM body = .ok results ↔ (∀ a ∈ items, Good a) ∧ results = items.map result := by
  induction items generalizing results with
  | nil => simp [pure, Except.pure, eq_comm]
  | cons a rest ih =>
      simp only [List.mapM_cons, bind_eq_ok, each, ih, List.forall_mem_cons, List.map_cons]
      constructor
      · rintro ⟨_, ⟨first, rfl⟩, _, ⟨later, rfl⟩, made⟩
        exact ⟨⟨first, later⟩, (Except.ok.inj made).symm⟩
      · rintro ⟨⟨first, later⟩, rfl⟩
        exact ⟨_, ⟨first, rfl⟩, _, ⟨later, rfl⟩, rfl⟩

/-- Apply writes in order, up to the first one the store rejects. -/
def sendAll (send : Write → Db → Except δ Db) : List Write → Db → Except δ Db
  | [], db => .ok db
  | write :: rest, db => send write db >>= sendAll send rest

@[simp] theorem sendAll_nil (send : Write → Db → Except δ Db) (db : Db) :
    sendAll send [] db = .ok db := rfl

theorem sendAll_snoc (send : Write → Db → Except δ Db) (writes : List Write) (write : Write)
    (db : Db) :
    sendAll send (writes ++ [write]) db = sendAll send writes db >>= send write := by
  induction writes generalizing db with
  | nil => exact bind_pure (send write db)
  | cons first rest ih =>
      simp only [List.cons_append, sendAll, bind_assoc]
      exact congrArg _ (funext ih)

namespace SessionM

/-- The result of a program and the session it leaves. -/
def runOn (program : SessionM Db Write δ ε α) (s : Session Db Write) :
    Except (SessionError δ ε) α × Session Db Write :=
  Id.run (StateT.run (ExceptT.run program) s)

@[simp] theorem runOn_pure (a : α) (s : Session Db Write) :
    runOn (pure a : SessionM Db Write δ ε α) s = (.ok a, s) := rfl

@[simp] theorem runOn_throw (e : SessionError δ ε) (s : Session Db Write) :
    runOn (throw e : SessionM Db Write δ ε α) s = (.error e, s) := rfl

theorem runOn_bind (program : SessionM Db Write δ ε α) (next : α → SessionM Db Write δ ε β)
    (s : Session Db Write) :
    runOn (program >>= next) s =
      match runOn program s with
      | (.ok a, t) => runOn (next a) t
      | (.error e, t) => (.error e, t) := by
  simp only [runOn, ExceptT.run_bind, StateT.run_bind]
  rcases ran : StateT.run (ExceptT.run program) s with ⟨result, t⟩
  cases result <;> rfl

theorem runOn_bind_ok {program : SessionM Db Write δ ε α} {next : α → SessionM Db Write δ ε β}
    {s t : Session Db Write} {a : α} (ran : runOn program s = (.ok a, t)) :
    runOn (program >>= next) s = runOn (next a) t := by
  simp only [runOn_bind, ran]

theorem runOn_bind_error {program : SessionM Db Write δ ε α} {next : α → SessionM Db Write δ ε β}
    {s t : Session Db Write} {e : SessionError δ ε} (ran : runOn program s = (.error e, t)) :
    runOn (program >>= next) s = (.error e, t) := by
  simp only [runOn_bind, ran]

theorem runOn_tryCatch (program : SessionM Db Write δ ε α)
    (handler : SessionError δ ε → SessionM Db Write δ ε α) (s : Session Db Write) :
    runOn (tryCatch program handler) s =
      match runOn program s with
      | (.ok a, t) => (.ok a, t)
      | (.error e, t) => runOn (handler e) t := by
  simp only [runOn, MonadExcept.tryCatch, tryCatchThe, MonadExceptOf.tryCatch, ExceptT.tryCatch,
    ExceptT.run, ExceptT.mk, StateT.run_bind]
  rcases ran : StateT.run (program : StateM _ _) s with ⟨result, t⟩
  cases result <;> rfl

/-! ### The operations -/

variable (send : Write → Db → Except δ Db)

/-- Send the pending writes. -/
def flush : SessionM Db Write δ ε Unit := fun s =>
  if s.pending.isEmpty then (.ok (), s)
  else if s.failed then (.error .pendingRollback, s)
  else
    match sendAll send s.pending s.tx with
    | .ok db => (.ok (), { s with tx := db, pending := [] })
    | .error e => (.error (.database e), .dead s.committed)

/-- A failed session refuses to go on. -/
def requireActive : SessionM Db Write δ ε Unit := fun s =>
  if s.failed then (.error .pendingRollback, s) else (.ok (), s)

/-- Run a query in the open transaction. -/
def select (query : Db → α) : SessionM Db Write δ ε α := do
  flush send
  requireActive
  return query (← get).tx

/-- Add a write to the unit of work; nothing is sent yet. -/
def add (write : Write) : SessionM Db Write δ ε Unit := fun s =>
  (.ok (), { s with pending := s.pending ++ [write] })

/-- Send the pending writes and make the transaction permanent. -/
def commit : SessionM Db Write δ ε Unit := do
  flush send
  requireActive
  modify fun s => { s with committed := s.tx }

/-- Give up the open transaction and begin a new one. -/
def rollback : SessionM Db Write δ ε Unit := fun s => (.ok (), .opened s.committed)

@[simp] theorem runOn_add (write : Write) (s : Session Db Write) :
    runOn (add write : SessionM Db Write δ ε Unit) s =
      (.ok (), { s with pending := s.pending ++ [write] }) := rfl

/-- With nothing pending a flush sends nothing, on any session. -/
@[simp] theorem runOn_flush_clean (committed tx : Db) (failed : Bool) :
    runOn (flush send : SessionM Db Write δ ε Unit) ⟨committed, tx, [], failed⟩ =
      (.ok (), ⟨committed, tx, [], failed⟩) := rfl

theorem runOn_flush (s : Session Db Write) (healthy : s.failed = false) :
    runOn (flush send : SessionM Db Write δ ε Unit) s =
      match sendAll send s.pending s.tx with
      | .ok db => (.ok (), ⟨s.committed, db, [], false⟩)
      | .error e => (.error (.database e), .dead s.committed) := by
  obtain ⟨committed, tx, pending, failed⟩ := s
  obtain rfl : failed = false := healthy
  cases pending with
  | nil => rfl
  | cons first rest => rfl

theorem runOn_select (query : Db → α) (s : Session Db Write) (healthy : s.failed = false) :
    runOn (select send query : SessionM Db Write δ ε α) s =
      match sendAll send s.pending s.tx with
      | .ok db => (.ok (query db), ⟨s.committed, db, [], false⟩)
      | .error e => (.error (.database e), .dead s.committed) := by
  rw [select, runOn_bind, runOn_flush send s healthy]
  cases sendAll send s.pending s.tx <;> rfl

theorem runOn_commit (s : Session Db Write) (healthy : s.failed = false) :
    runOn (commit send : SessionM Db Write δ ε Unit) s =
      match sendAll send s.pending s.tx with
      | .ok db => (.ok (), .opened db)
      | .error e => (.error (.database e), .dead s.committed) := by
  rw [commit, runOn_bind, runOn_flush send s healthy]
  cases sendAll send s.pending s.tx <;> rfl

@[simp] theorem runOn_select_clean (query : Db → α) (committed tx : Db) :
    runOn (select send query : SessionM Db Write δ ε α) ⟨committed, tx, [], false⟩ =
      (.ok (query tx), ⟨committed, tx, [], false⟩) := rfl

/-- A failed session refuses every query, whatever was added to it since. -/
theorem runOn_select_failed (query : Db → α) (s : Session Db Write) (failed : s.failed = true) :
    runOn (select send query : SessionM Db Write δ ε α) s = (.error .pendingRollback, s) := by
  obtain ⟨committed, tx, pending, _⟩ := s
  obtain rfl : _ = true := failed
  cases pending with
  | nil => rfl
  | cons first rest => rfl

/-- A failed session cannot commit. -/
theorem runOn_commit_failed (s : Session Db Write) (failed : s.failed = true) :
    runOn (commit send : SessionM Db Write δ ε Unit) s = (.error .pendingRollback, s) := by
  obtain ⟨committed, tx, pending, _⟩ := s
  obtain rfl : _ = true := failed
  cases pending with
  | nil => rfl
  | cons first rest => rfl

end SessionM

/-! ### Programs that catch nothing -/

section Tracks

open SessionM

variable (send : Write → Db → Except δ Db)

/-- A healthy session over the committed store `base` whose transaction, pending
writes included, amounts to `view`. -/
structure Holding (base : Db) (view : Except δ Db) (s : Session Db Write) : Prop where
  healthy : s.failed = false
  committed : s.committed = base
  view : sendAll send s.pending s.tx = view

/-- How a program may end when its state transformer ends in `expected`. A
rejected write ends it at once or stays pending for a later statement to find. -/
def Leaves (base : Db) (expected : Except δ (α × Db))
    (ended : Except (SessionError δ ε) α × Session Db Write) : Prop :=
  match expected with
  | .ok (a, db) => ended.1 = .ok a ∧ Holding send base (.ok db) ended.2
  | .error e =>
      ended = (.error (.database e), .dead base) ∨
        ∃ a, ended.1 = .ok a ∧ Holding send base (.error e) ended.2

/-- The program behaves like the state transformer from every healthy session. -/
def Tracks (program : SessionM Db Write δ ε α) (transformer : StateT Db (Except δ) α) : Prop :=
  ∀ base view s, Holding send base view s →
    Leaves send base (view >>= transformer.run) (runOn program s)

variable {send}

theorem Tracks.pure (a : α) :
    Tracks send (Pure.pure a : SessionM Db Write δ ε α) (Pure.pure a) := by
  intro base view s holding
  cases view with
  | ok db => exact ⟨rfl, holding⟩
  | error e => exact .inr ⟨a, rfl, holding⟩

theorem Tracks.bind {program : SessionM Db Write δ ε α} {transformer : StateT Db (Except δ) α}
    {next : α → SessionM Db Write δ ε β} {nextTransformer : α → StateT Db (Except δ) β}
    (first : Tracks send program transformer)
    (second : ∀ a, Tracks send (next a) (nextTransformer a)) :
    Tracks send (program >>= next) (transformer >>= nextTransformer) := by
  intro base view s holding
  have ended := first base view s holding
  have composed : view >>= (transformer >>= nextTransformer).run =
      (view >>= transformer.run) >>= fun reached => (nextTransformer reached.1).run reached.2 := by
    cases view <;> rfl
  rw [composed]
  rcases ran : runOn program s with ⟨result, t⟩
  rw [ran] at ended
  cases stepped : view >>= transformer.run with
  | ok reached =>
      obtain ⟨a, db⟩ := reached
      rw [stepped] at ended
      obtain ⟨rfl, after⟩ : result = .ok a ∧ Holding send base (.ok db) t := ended
      rw [runOn_bind_ok ran]
      exact second a base (.ok db) t after
  | error e =>
      rw [stepped] at ended
      rcases ended with died | ⟨a, returned, after⟩
      · obtain ⟨rfl, rfl⟩ : result = .error (.database e) ∧ t = .dead base := by simpa using died
        exact .inl (runOn_bind_error ran)
      · obtain rfl : result = .ok a := returned
        rw [runOn_bind_ok ran]
        exact second a base (.error e) t after

/-- A query and what follows it, for the answers the store can give. -/
theorem Tracks.select_bind (query : Db → α) {next : α → SessionM Db Write δ ε β}
    {transformer : α → StateT Db (Except δ) β}
    (each : ∀ db, Tracks send (next (query db)) (transformer (query db))) :
    Tracks send (SessionM.select send query >>= next) fun db => transformer (query db) db := by
  intro base view s holding
  have ended := @runOn_select Db Write δ ε α send query s holding.healthy
  rw [holding.view, holding.committed] at ended
  cases view with
  | ok db =>
      rw [runOn_bind_ok ended]
      exact each db base (.ok db) _ ⟨rfl, rfl, rfl⟩
  | error e => exact .inl (runOn_bind_error ended)

theorem Tracks.flush :
    Tracks send (SessionM.flush send : SessionM Db Write δ ε Unit) (Pure.pure ()) := by
  intro base view s holding
  rw [runOn_flush send s holding.healthy, holding.view, holding.committed]
  cases view with
  | ok db => exact ⟨rfl, rfl, rfl, rfl⟩
  | error e => exact .inl rfl

theorem Tracks.add (write : Write) :
    Tracks send (SessionM.add write : SessionM Db Write δ ε Unit)
      (fun db => (send write db).map fun after => ((), after)) := by
  intro base view s holding
  have added : ∀ after, view >>= send write = after →
      Holding send base after { s with pending := s.pending ++ [write] } := by
    intro after applied
    refine ⟨holding.healthy, holding.committed, ?_⟩
    rw [sendAll_snoc, holding.view, applied]
  rw [runOn_add]
  cases view with
  | ok db =>
      cases applied : send write db with
      | ok after =>
          have stepped : (Except.ok db >>= StateT.run fun db =>
              (send write db).map fun after => ((), after)) = Except.ok ((), after) := by
            simp [StateT.run, Bind.bind, Except.bind, applied, Except.map]
          rw [stepped]
          exact ⟨rfl, added _ applied⟩
      | error e =>
          have stepped : (Except.ok db >>= StateT.run fun db =>
              (send write db).map fun after => ((), after)) = Except.error e := by
            simp [StateT.run, Bind.bind, Except.bind, applied, Except.map]
          rw [stepped]
          exact .inr ⟨(), rfl, added _ applied⟩
  | error e => exact .inr ⟨(), rfl, added _ rfl⟩

/-- Adding a write and returning a value. -/
theorem Tracks.add_return (write : Write) (a : α) :
    Tracks send (do SessionM.add write; return a : SessionM Db Write δ ε α)
      (fun db => (send write db).map fun after => (a, after)) := by
  have tracks : Tracks send (do SessionM.add write; return a : SessionM Db Write δ ε α) _ :=
    (Tracks.add write).bind fun _ => Tracks.pure a
  convert tracks using 1
  funext db
  change _ = (send write db).map _ >>= _
  cases send write db <;> rfl

/-- The same with a flush before the return. -/
theorem Tracks.add_flush_return (write : Write) (a : α) :
    Tracks send
      (do SessionM.add write; SessionM.flush send; return a : SessionM Db Write δ ε α)
      (fun db => (send write db).map fun after => (a, after)) := by
  have tracks : Tracks send
      (do SessionM.add write; SessionM.flush send; return a : SessionM Db Write δ ε α) _ :=
    (Tracks.add write).bind fun _ => Tracks.flush.bind fun _ => Tracks.pure a
  convert tracks using 1
  funext db
  change _ = (send write db).map _ >>= _
  cases send write db <;> rfl

theorem Tracks.forM {ι : Type} {body : ι → SessionM Db Write δ ε PUnit}
    {bodyTransformer : ι → StateT Db (Except δ) PUnit}
    (each : ∀ i, Tracks send (body i) (bodyTransformer i)) (items : List ι) :
    Tracks send (items.forM body) (items.forM bodyTransformer) := by
  induction items with
  | nil => exact .pure ()
  | cons i rest ih => exact (each i).bind fun _ => ih

/-- With a flush at its end, the program leaves the transformer's state in an open
transaction with nothing pending, or a dead session. -/
theorem Tracks.flushed {program : SessionM Db Write δ ε PUnit}
    {transformer : StateT Db (Except δ) PUnit} (tracks : Tracks send program transformer)
    {base db : Db} {s : Session Db Write} (holding : Holding send base (.ok db) s) :
    runOn (program >>= fun _ => SessionM.flush send) s =
      match transformer.run db with
      | .ok (_, after) => (.ok (), ⟨base, after, [], false⟩)
      | .error e => (.error (.database e), .dead base) := by
  have ended := tracks base (.ok db) s holding
  rcases ran : runOn program s with ⟨result, t⟩
  rw [ran] at ended
  have stepped : (Except.ok db >>= transformer.run) = transformer.run db := rfl
  rw [stepped] at ended
  cases moved : transformer.run db with
  | ok reached =>
      obtain ⟨_, after⟩ := reached
      rw [moved] at ended
      obtain ⟨rfl, held⟩ : result = .ok () ∧ Holding send base (.ok after) t := ended
      rw [runOn_bind_ok ran, runOn_flush send t held.healthy, held.view, held.committed]
  | error e =>
      rw [moved] at ended
      rcases ended with died | ⟨_, returned, held⟩
      · obtain ⟨rfl, rfl⟩ : result = .error (.database e) ∧ t = .dead base := by simpa using died
        exact runOn_bind_error ran
      · obtain rfl : result = .ok () := returned
        rw [runOn_bind_ok ran, runOn_flush send t held.healthy, held.view, held.committed]

/-- With a commit at its end, the program leaves the transformer's state committed, or a dead
session. -/
theorem Tracks.committed {program : SessionM Db Write δ ε PUnit}
    {transformer : StateT Db (Except δ) PUnit} (tracks : Tracks send program transformer)
    {base db : Db} {s : Session Db Write} (holding : Holding send base (.ok db) s) :
    runOn (program >>= fun _ => SessionM.commit send) s =
      match transformer.run db with
      | .ok (_, after) => (.ok (), .opened after)
      | .error e => (.error (.database e), .dead base) := by
  have flushed := tracks.flushed holding
  have split : (program >>= fun _ => SessionM.commit send) =
      ((program >>= fun _ => SessionM.flush send) >>= fun _ => do
        SessionM.requireActive
        modify fun s => { s with committed := s.tx }) := by
    simp only [SessionM.commit, bind_assoc]
  rw [split]
  cases moved : transformer.run db with
  | ok reached =>
      rw [moved] at flushed
      rw [runOn_bind_ok flushed]
      rfl
  | error e =>
      rw [moved] at flushed
      rw [runOn_bind_error flushed]

end Tracks

end TenantLibrary.Lib
