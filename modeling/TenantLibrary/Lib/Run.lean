import Mathlib.Data.List.Basic
import Mathlib.Logic.Relation

/-!
Finite labelled runs of a step relation.

A run is the list of its labels together with its two end states, so a statement
can speak about the actions taken (how often, in which order) as well as about
the states reached. `Guarded` restricts the steps of a relation by a condition
on the state before the step; results of the form "every run whose steps all
meet a condition" are statements about runs of a guarded relation. `exec` is the
executable form of a run of a deterministic partial step function.
-/

namespace TenantLibrary.Lib

variable {σ α : Type*}

/-- `Run R s as t`: from `s` the labels `as` lead to `t` by steps of `R`. -/
inductive Run (R : σ → α → σ → Prop) : σ → List α → σ → Prop where
  | nil (s : σ) : Run R s [] s
  | cons {s t u : σ} {a : α} {as : List α} : R s a t → Run R t as u → Run R s (a :: as) u

namespace Run

variable {R R' : σ → α → σ → Prop} {s t u : σ} {as bs : List α} {a : α}

theorem append (first : Run R s as t) (second : Run R t bs u) : Run R s (as ++ bs) u := by
  induction first with
  | nil => exact second
  | cons step _ ih => exact .cons step (ih second)

/-- A weaker step relation has every run of a stronger one. -/
theorem mono (weaker : ∀ s a t, R s a t → R' s a t) (run : Run R s as t) : Run R' s as t := by
  induction run with
  | nil s => exact .nil s
  | cons step _ ih => exact .cons (weaker _ _ _ step) ih

/-- The invariant rule: what every step preserves holds at the end of a run. -/
theorem invariant (Inv : σ → Prop) (preserved : ∀ s a t, Inv s → R s a t → Inv t)
    (run : Run R s as t) (start : Inv s) : Inv t := by
  induction run with
  | nil => exact start
  | cons step _ ih => exact ih (preserved _ _ _ start step)

/-- The invariant rule with the labels taken so far in the invariant. -/
theorem invariant_trace (Inv : List α → σ → Prop)
    (preserved : ∀ as s a t, Inv as s → R s a t → Inv (as ++ [a]) t)
    (run : Run R s as t) (start : Inv [] s) : Inv as t := by
  suffices general : ∀ before, Inv before s → Inv (before ++ as) t by
    simpa using general [] start
  clear start
  induction run with
  | nil s => intro before held; simpa using held
  | @cons s t u a as step _ ih =>
      intro before held
      have next := ih (before ++ [a]) (preserved before s a t held step)
      simpa using next

/-- The measure rule for the steps that `counts` picks: where each of them makes a measure
smaller and the others do not make it larger, it bounds how many there are. -/
theorem countP_add_le (measure : σ → Nat) (counts : α → Bool)
    (smaller : ∀ s a t, R s a t → measure t + (if counts a then 1 else 0) ≤ measure s)
    (run : Run R s as t) : as.countP counts + measure t ≤ measure s := by
  induction run with
  | nil => simp
  | @cons s t u a as step _ ih =>
      have less := smaller s a t step
      rw [List.countP_cons]
      omega

/-- The measure rule: where every step makes a measure smaller, it bounds the steps. -/
theorem length_add_le (measure : σ → Nat) (smaller : ∀ s a t, R s a t → measure t < measure s)
    (run : Run R s as t) : as.length + measure t ≤ measure s := by
  have all := run.countP_add_le measure (fun _ => true) fun s a t step => smaller s a t step
  rwa [List.countP_true] at all

end Run

/-- The steps of `R` taken in a state where `ok` allows the label. -/
def Guarded (ok : σ → α → Prop) (R : σ → α → σ → Prop) (s : σ) (a : α) (t : σ) : Prop :=
  ok s a ∧ R s a t

/-- A guarded run is a run. -/
theorem Run.unguard {ok : σ → α → Prop} {R : σ → α → σ → Prop} {s t : σ} {as : List α}
    (run : Run (Guarded ok R) s as t) : Run R s as t :=
  run.mono fun _ _ _ step => step.2

/-- A run is guarded by what every one of its labels meets. -/
theorem Run.guard {ok : σ → α → Prop} {R : σ → α → σ → Prop} {s t : σ} {as : List α}
    (run : Run R s as t) (every : ∀ s, ∀ a ∈ as, ok s a) : Run (Guarded ok R) s as t := by
  induction run with
  | nil s => exact .nil s
  | cons step _ ih =>
      exact .cons ⟨every _ _ List.mem_cons_self, step⟩
        (ih fun s a mem => every s a (List.mem_cons_of_mem _ mem))

/-- The steps of `R` with a count of those that `counts` picks. -/
def Counted (counts : σ → α → Prop) [∀ s a, Decidable (counts s a)] (R : σ → α → σ → Prop)
    (s : σ × Nat) (a : α) (t : σ × Nat) : Prop :=
  R s.1 a t.1 ∧ t.2 = s.2 + if counts s.1 a then 1 else 0

/-- A counted run is a run. -/
theorem Run.uncount {counts : σ → α → Prop} [∀ s a, Decidable (counts s a)]
    {R : σ → α → σ → Prop} {s t : σ × Nat} {as : List α} (run : Run (Counted counts R) s as t) :
    Run R s.1 as t.1 := by
  induction run with
  | nil => exact .nil _
  | cons step _ ih => exact .cons step.1 ih

/-- The step relation of a deterministic partial step function. -/
def Steps (step : σ → α → Option σ) (s : σ) (a : α) (t : σ) : Prop :=
  step s a = some t

/-- Execute a list of labels; `none` when one of them is not enabled. -/
def exec (step : σ → α → Option σ) : σ → List α → Option σ
  | s, [] => some s
  | s, a :: as => (step s a).bind fun t => exec step t as

theorem exec_append {step : σ → α → Option σ} {s : σ} (as bs : List α) :
    exec step s (as ++ bs) = (exec step s as).bind fun t => exec step t bs := by
  induction as generalizing s with
  | nil => rfl
  | cons a as ih => simp [exec, ih, Option.bind_assoc]

/-- An execution is a run. -/
theorem run_of_exec {step : σ → α → Option σ} {s t : σ} {as : List α}
    (computed : exec step s as = some t) : Run (Steps step) s as t := by
  induction as generalizing s with
  | nil =>
      simp only [exec, Option.some.injEq] at computed
      exact computed ▸ .nil s
  | cons a as ih =>
      obtain ⟨next, enabled, rest⟩ := Option.bind_eq_some_iff.mp computed
      exact .cons enabled (ih rest)

/-- The guarded step function: a label the condition forbids is not enabled. -/
def guardStep (ok : σ → α → Prop) [∀ s a, Decidable (ok s a)] (step : σ → α → Option σ) (s : σ)
    (a : α) : Option σ :=
  if ok s a then step s a else none

/-- An execution of the guarded step function is a guarded run. -/
theorem guarded_run_of_exec {ok : σ → α → Prop} [∀ s a, Decidable (ok s a)]
    {step : σ → α → Option σ} {s t : σ} {as : List α}
    (computed : exec (guardStep ok step) s as = some t) : Run (Guarded ok (Steps step)) s as t :=
  (run_of_exec computed).mono fun s a t stepped => by
    unfold Steps guardStep at stepped
    split at stepped
    · exact ⟨‹_›, stepped⟩
    · cases stepped

/-- The step function with a count of the steps that `counts` picks. -/
def countStep (counts : σ → α → Prop) [∀ s a, Decidable (counts s a)] (step : σ → α → Option σ)
    (s : σ × Nat) (a : α) : Option (σ × Nat) :=
  (step s.1 a).map fun t => (t, s.2 + if counts s.1 a then 1 else 0)

/-- An execution of the guarded and counting step function is a counted run. -/
theorem counted_run_of_exec {counts ok : σ → α → Prop} [∀ s a, Decidable (counts s a)]
    [∀ s a, Decidable (ok s a)] {step : σ → α → Option σ} {s t : σ × Nat} {as : List α}
    (computed : exec (countStep counts (guardStep ok step)) s as = some t) :
    Run (Counted counts (Guarded ok (Steps step))) s as t :=
  (run_of_exec computed).mono fun s a t stepped => by
    obtain ⟨next, guarded, rfl⟩ := Option.map_eq_some_iff.mp stepped
    unfold guardStep at guarded
    split at guarded
    · exact ⟨⟨‹_›, guarded⟩, rfl⟩
    · cases guarded

end TenantLibrary.Lib
