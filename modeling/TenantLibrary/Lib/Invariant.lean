import TenantLibrary.Lib.Session

/-!
Invariants of the store.

What every write keeps, every program keeps, whether it commits, is rolled back or
raises: the stores of a session change by accepted writes only. `Keeps` says so of a
program, with a rule for every construct.
-/

namespace TenantLibrary.Lib

open SessionM

variable {Db Write δ ε α β γ : Type}

/-- Every accepted write keeps the invariant. -/
def KeptBy (send : Write → Db → Except δ Db) (Inv : Db → Prop) : Prop :=
  ∀ write db after, Inv db → send write db = .ok after → Inv after

/-- Both stores of the session satisfy the invariant. -/
structure Session.Within (Inv : Db → Prop) (s : Session Db Write) : Prop where
  committed : Inv s.committed
  tx : Inv s.tx

/-- The program leaves a session within the invariant there. -/
def Keeps (Inv : Db → Prop) (program : SessionM Db Write δ ε α) : Prop :=
  ∀ s, s.Within Inv → (program.runOn s).2.Within Inv

variable {Inv : Db → Prop} {send : Write → Db → Except δ Db}

theorem KeptBy.all (kept : KeptBy send Inv) {writes : List Write} {db after : Db} (holds : Inv db)
    (sent : sendAll send writes db = .ok after) : Inv after := by
  induction writes generalizing db with
  | nil => exact Except.ok.inj sent ▸ holds
  | cons write rest ih =>
      obtain ⟨next, first, later⟩ := bind_eq_ok.mp sent
      exact ih (kept write db next holds first) later

namespace Keeps

theorem pure (a : α) : Keeps Inv (Pure.pure a : SessionM Db Write δ ε α) :=
  fun _ within => within

theorem throw (e : SessionError δ ε) : Keeps Inv (throw e : SessionM Db Write δ ε α) :=
  fun _ within => within

theorem bind {program : SessionM Db Write δ ε α} {next : α → SessionM Db Write δ ε β}
    (first : Keeps Inv program) (then_ : ∀ a, Keeps Inv (next a)) :
    Keeps Inv (program >>= next) := by
  intro s within
  have after := first s within
  rw [runOn_bind]
  rcases ran : program.runOn s with ⟨e | a, t⟩
  · rw [ran] at after
    exact after
  · rw [ran] at after
    exact then_ a t after

/-- The same for a condition that chooses the first program. -/
theorem ite_bind {condition : Prop} [Decidable condition] {program other : SessionM Db Write δ ε α}
    {next : α → SessionM Db Write δ ε β} (first : Keeps Inv program) (second : Keeps Inv other)
    (then_ : ∀ a, Keeps Inv (next a)) :
    Keeps Inv (if condition then program >>= next else other >>= next) := by
  split
  · exact first.bind then_
  · exact second.bind then_

theorem tryCatch {program : SessionM Db Write δ ε α}
    {handler : SessionError δ ε → SessionM Db Write δ ε α} (tried : Keeps Inv program)
    (handled : ∀ e, Keeps Inv (handler e)) : Keeps Inv (MonadExcept.tryCatch program handler) := by
  intro s within
  have after := tried s within
  rw [runOn_tryCatch]
  rcases ran : program.runOn s with ⟨e | a, t⟩
  · rw [ran] at after
    exact handled e t after
  · rw [ran] at after
    exact after

theorem add (write : Write) : Keeps Inv (SessionM.add write : SessionM Db Write δ ε Unit) :=
  fun _ within => ⟨within.committed, within.tx⟩

theorem flush (kept : KeptBy send Inv) :
    Keeps Inv (SessionM.flush send : SessionM Db Write δ ε Unit) := by
  rintro ⟨committed, tx, pending, failed⟩ within
  cases pending with
  | nil => exact within
  | cons first rest =>
      cases failed with
      | true => exact within
      | false =>
          rw [runOn_flush _ _ rfl]
          dsimp only
          cases sent : sendAll send (first :: rest) tx with
          | error e => exact ⟨within.committed, within.committed⟩
          | ok db => exact ⟨within.committed, kept.all within.tx sent⟩

theorem requireActive : Keeps Inv (SessionM.requireActive : SessionM Db Write δ ε Unit) := by
  rintro ⟨committed, tx, pending, failed⟩ within
  cases failed <;> exact within

theorem select (kept : KeptBy send Inv) (query : Db → α) :
    Keeps Inv (SessionM.select send query : SessionM Db Write δ ε α) :=
  (flush kept).bind fun _ => requireActive.bind fun _ _ within => within

theorem commit (kept : KeptBy send Inv) :
    Keeps Inv (SessionM.commit send : SessionM Db Write δ ε Unit) :=
  (flush kept).bind fun _ => requireActive.bind fun _ _ within => ⟨within.tx, within.tx⟩

theorem forM {body : γ → SessionM Db Write δ ε PUnit} {xs : List γ}
    (each : ∀ x ∈ xs, Keeps Inv (body x)) : Keeps Inv (xs.forM body) := by
  induction xs with
  | nil => exact pure _
  | cons x rest ih =>
      exact (each x List.mem_cons_self).bind fun _ =>
        ih fun later mem => each later (List.mem_cons_of_mem _ mem)

/-- What a program has committed at its end satisfies the invariant. -/
theorem run {program : SessionM Db Write δ ε α} (keeps : Keeps Inv program) {db : Db}
    (holds : Inv db) : Inv (program.runOn (.opened db)).2.committed :=
  (keeps _ ⟨holds, holds⟩).committed

end Keeps

end TenantLibrary.Lib
