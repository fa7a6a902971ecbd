import TenantLibrary.Lib.Session

/-!
Programs that may raise, as partial functions on the store.

`Mirrors` relates a program to a transformer that applies each write at once and
has no result where the program raises or the store rejects a write. It forgets which
exception ended the program, so it has a rule for every construct but a handler.
`Mirrors.committed` turns the relation into the exact end state of a program that
commits.
-/

namespace TenantLibrary.Lib

open SessionM

variable {Db Write δ ε α β : Type} (send : Write → Db → Except δ Db)

/-- How a program may end when the transformer ends in `expected`. Without a result the
program raised, or a rejected write is pending. -/
def Ends (base : Db) (expected : Option (α × Db))
    (ended : Except (SessionError δ ε) α × Session Db Write) : Prop :=
  match expected with
  | some (a, db) => ended.1 = .ok a ∧ Holding send base (.ok db) ended.2
  | none =>
      (∃ e, ended.1 = .error e) ∨ ∃ a e, ended.1 = .ok a ∧ Holding send base (.error e) ended.2

/-- The program behaves like the transformer from every healthy session. -/
def Mirrors (program : SessionM Db Write δ ε α) (transformer : StateT Db Option α) : Prop :=
  ∀ base view s, Holding send base view s →
    Ends send base (view.toOption >>= transformer.run) (runOn program s)

namespace Mirrors

variable {send}

theorem congr {program : SessionM Db Write δ ε α} {transformer transformer' : StateT Db Option α}
    (mirrors : Mirrors send program transformer) (same : ∀ db, transformer db = transformer' db) :
    Mirrors send program transformer' :=
  (funext same : transformer = transformer') ▸ mirrors

/-- A program that behaves like a transformer with errors, when the errors are forgotten. -/
theorem of_tracks {program : SessionM Db Write δ ε α} {transformer : StateT Db (Except δ) α}
    (tracks : Tracks send program transformer) :
    Mirrors send program fun db => (transformer db).toOption := by
  intro base view s holding
  have ended := tracks base view s holding
  have forgotten : (view.toOption >>= StateT.run fun db => (transformer db).toOption) =
      (view >>= transformer.run).toOption := by
    cases view <;> rfl
  rw [forgotten]
  cases stepped : view >>= transformer.run with
  | ok reached =>
      rw [stepped] at ended
      exact ended
  | error e =>
      rw [stepped] at ended
      rcases ended with died | ⟨a, returned, after⟩
      · exact .inl ⟨_, congrArg Prod.fst died⟩
      · exact .inr ⟨a, e, returned, after⟩

theorem pure (a : α) :
    Mirrors send (Pure.pure a : SessionM Db Write δ ε α) (Pure.pure a) :=
  of_tracks (Tracks.pure a)

theorem throw (e : SessionError δ ε) :
    Mirrors send (throw e : SessionM Db Write δ ε α) fun _ => none := by
  intro base view s _
  cases view <;> exact .inl ⟨e, rfl⟩

theorem bind {program : SessionM Db Write δ ε α} {transformer : StateT Db Option α}
    {next : α → SessionM Db Write δ ε β} {nextTransformer : α → StateT Db Option β}
    (first : Mirrors send program transformer)
    (second : ∀ a, Mirrors send (next a) (nextTransformer a)) :
    Mirrors send (program >>= next) (transformer >>= nextTransformer) := by
  intro base view s holding
  have ended := first base view s holding
  have composed : view.toOption >>= (transformer >>= nextTransformer).run =
      (view.toOption >>= transformer.run) >>=
        fun reached => (nextTransformer reached.1).run reached.2 := by
    cases view <;> rfl
  rw [composed]
  rcases ran : runOn program s with ⟨result, t⟩
  rw [ran] at ended
  cases stepped : view.toOption >>= transformer.run with
  | some reached =>
      obtain ⟨a, db⟩ := reached
      rw [stepped] at ended
      obtain ⟨rfl, after⟩ : result = .ok a ∧ Holding send base (.ok db) t := ended
      rw [runOn_bind_ok ran]
      exact second a base (.ok db) t after
  | none =>
      rw [stepped] at ended
      rcases ended with ⟨e, rfl⟩ | ⟨a, e, rfl, after⟩
      · rw [runOn_bind_error ran]
        exact .inl ⟨e, rfl⟩
      · rw [runOn_bind_ok ran]
        exact second a base (.error e) t after

theorem flush :
    Mirrors send (SessionM.flush send : SessionM Db Write δ ε Unit) (Pure.pure ()) :=
  of_tracks Tracks.flush

theorem add (write : Write) :
    Mirrors send (SessionM.add write : SessionM Db Write δ ε Unit)
      (fun db => (send write db).toOption.map fun after => ((), after)) := by
  refine (of_tracks (Tracks.add write)).congr fun db => ?_
  cases send write db <;> simp [Except.map, Except.toOption]

end Mirrors

/-! ### Programs that end with a commit -/

/-- The program does what the transformer does and commits it. -/
def Commits (program : SessionM Db Write δ ε α) (transformer : StateT Db Option α) : Prop :=
  ∃ prepare, Mirrors send prepare transformer ∧
    program = do let a ← prepare; SessionM.commit send; return a

namespace Commits

variable {send}

theorem commit (a : α) :
    Commits send (do SessionM.commit send; return a : SessionM Db Write δ ε α) (Pure.pure a) :=
  ⟨Pure.pure a, .pure a, by rw [pure_bind]⟩

theorem bind {program : SessionM Db Write δ ε α} {transformer : StateT Db Option α}
    {next : α → SessionM Db Write δ ε β} {nextTransformer : α → StateT Db Option β}
    (first : Mirrors send program transformer)
    (second : ∀ a, Commits send (next a) (nextTransformer a)) :
    Commits send (program >>= next) (transformer >>= nextTransformer) := by
  choose prepare mirrors same using second
  refine ⟨program >>= prepare, first.bind mirrors, ?_⟩
  rw [bind_assoc]
  exact congrArg _ (funext same)

theorem congr {program : SessionM Db Write δ ε α} {transformer transformer' : StateT Db Option α}
    (commits : Commits send program transformer) (same : ∀ db, transformer db = transformer' db) :
    Commits send program transformer' :=
  (funext same : transformer = transformer') ▸ commits

/-- On a fresh session the program leaves the transformer's store committed, or raises. -/
theorem run {program : SessionM Db Write δ ε α} {transformer : StateT Db Option α}
    (commits : Commits send program transformer) (db : Db) :
    match transformer db with
    | some (a, after) => runOn program (.opened db) = (.ok a, .opened after)
    | none => ∃ e, (runOn program (.opened db)).1 = .error e := by
  obtain ⟨prepare, mirrors, rfl⟩ := commits
  have ended := mirrors db (.ok db) (.opened db) ⟨rfl, rfl, rfl⟩
  change Ends send db (transformer db) _ at ended
  rcases ran : runOn prepare (.opened db) with ⟨result, t⟩
  rw [ran] at ended
  cases stepped : transformer db with
  | some reached =>
      obtain ⟨a, after⟩ := reached
      rw [stepped] at ended
      obtain ⟨rfl, holding⟩ : result = .ok a ∧ Holding send db (.ok after) t := ended
      have closed := @runOn_commit Db Write δ ε send t holding.healthy
      rw [holding.view] at closed
      rw [runOn_bind_ok ran, runOn_bind_ok closed]
      rfl
  | none =>
      rw [stepped] at ended
      rcases ended with ⟨e, rfl⟩ | ⟨a, e, rfl, holding⟩
      · exact ⟨e, congrArg Prod.fst (runOn_bind_error ran)⟩
      · have closed := @runOn_commit Db Write δ ε send t holding.healthy
        rw [holding.view] at closed
        rw [runOn_bind_ok ran, runOn_bind_error closed]
        exact ⟨_, rfl⟩

/-- The program returns exactly where the transformer has a result. -/
theorem returns_iff {program : SessionM Db Write δ ε α} {transformer : StateT Db Option α}
    (commits : Commits send program transformer) {db : Db} {a : α} {t : Session Db Write} :
    runOn program (.opened db) = (.ok a, t) ↔
      ∃ after, transformer db = some (a, after) ∧ t = .opened after := by
  have ended := commits.run db
  cases stepped : transformer db with
  | none =>
      rw [stepped] at ended
      obtain ⟨e, raised⟩ := ended
      constructor
      · intro returned
        rw [returned] at raised
        cases raised
      · nofun
  | some reached =>
      rw [stepped] at ended
      rw [ended]
      simp [Prod.ext_iff, eq_comm, and_assoc]

end Commits

/-! ### Programs that only read -/

/-- The program returns `result` of what the transaction amounts to, changing nothing, and
raises where there is no result. On a transaction that amounts to nothing, because a
rejected write is pending, it may do either. -/
def Reads (program : SessionM Db Write δ ε α) (result : Db → Option α) : Prop :=
  ∀ base view s, Holding send base view s →
    match runOn program s with
    | (.ok a, t) => Holding send base view t ∧ ∀ db, view = .ok db → result db = some a
    | (.error _, _) => ∀ db, view = .ok db → result db = none

namespace Reads

variable {send}

theorem pure (a : α) :
    Reads send (Pure.pure a : SessionM Db Write δ ε α) fun _ => some a :=
  fun _ _ _ holding => ⟨holding, fun _ _ => rfl⟩

theorem throw (e : SessionError δ ε) :
    Reads send (throw e : SessionM Db Write δ ε α) fun _ => none :=
  fun _ _ _ _ _ _ => rfl

theorem select (query : Db → α) :
    Reads send (SessionM.select send query : SessionM Db Write δ ε α) fun db => some (query db) := by
  intro base view s holding
  rw [runOn_select send query s holding.healthy, holding.view, holding.committed]
  cases view with
  | ok db => exact ⟨⟨rfl, rfl, rfl⟩, fun _ same => by rw [Except.ok.inj same]⟩
  | error e => nofun

theorem bind {program : SessionM Db Write δ ε α} {result : Db → Option α}
    {next : α → SessionM Db Write δ ε β} {nextResult : α → Db → Option β}
    (first : Reads send program result) (second : ∀ a, Reads send (next a) (nextResult a)) :
    Reads send (program >>= next) fun db => result db >>= fun a => nextResult a db := by
  intro base view s holding
  have ended := first base view s holding
  rcases ran : runOn program s with ⟨e | a, t⟩
  · rw [ran] at ended
    rw [runOn_bind_error ran]
    exact fun db same => Option.bind_eq_none_iff.mpr fun a found => by
      cases (ended db same).symm.trans found
  · rw [ran] at ended
    rw [runOn_bind_ok ran]
    have rest := second a base view t ended.1
    have composed (db : Db) (same : view = .ok db) :
        (result db >>= fun a => nextResult a db) = nextResult a db := by
      rw [ended.2 db same]
      rfl
    rcases ran' : runOn (next a) t with ⟨e | b, u⟩
    · rw [ran'] at rest
      exact fun db same => (composed db same).trans (rest db same)
    · rw [ran'] at rest
      exact ⟨rest.1, fun db same => (composed db same).trans (rest.2 db same)⟩

theorem congr {program : SessionM Db Write δ ε α} {result result' : Db → Option α}
    (reads : Reads send program result) (same : ∀ db, result db = result' db) :
    Reads send program result' :=
  funext same ▸ reads

theorem mirrors {program : SessionM Db Write δ ε α} {result : Db → Option α}
    (reads : Reads send program result) :
    Mirrors send program fun db => (result db).map fun a => (a, db) := by
  intro base view s holding
  have ended := reads base view s holding
  rcases ran : runOn program s with ⟨e | a, t⟩
  · rw [ran] at ended
    have nothing : (view.toOption >>= StateT.run fun db => (result db).map fun a => (a, db)) =
        none := by
      cases view with
      | ok db => exact congrArg (Option.map fun a => (a, db)) (ended db rfl)
      | error _ => rfl
    rw [nothing]
    exact .inl ⟨e, rfl⟩
  · rw [ran] at ended
    cases view with
    | ok db =>
        have found : (Except.toOption (.ok db : Except δ Db) >>=
            StateT.run fun db => (result db).map fun a => (a, db)) = some (a, db) :=
          congrArg (Option.map fun a => (a, db)) (ended.2 db rfl)
        rw [found]
        exact ⟨rfl, ended.1⟩
    | error e => exact .inr ⟨a, e, rfl, ended.1⟩

/-- On a fresh session the program returns exactly the result. -/
theorem returns_iff {program : SessionM Db Write δ ε α} {result : Db → Option α}
    (reads : Reads send program result) (db : Db) (a : α) :
    (runOn program (.opened db)).1 = .ok a ↔ result db = some a := by
  have ended := reads db (.ok db) (.opened db) ⟨rfl, rfl, rfl⟩
  rcases ran : runOn program (.opened db) with ⟨e | b, t⟩
  · rw [ran] at ended
    simp [ended db rfl]
  · rw [ran] at ended
    simp [ended.2 db rfl]

end Reads

end TenantLibrary.Lib
