import TenantLibrary.Lib.Unwinding

/-!
Purging by a relation between two runs.

Some views of a state are only right from now on: a view of a store whose entries run out with
time, for example. `Purges` therefore relates a run to the run without the operations of others
by any relation that the operations of interest keep on both sides, and those of others on one.
Separate views are the case of a function (`Separates.purges`). A service behind a guard that
may refuse an operation purges when both do (`Purges.behind`).
-/

namespace TenantLibrary.Lib

variable {State Op Response : Type}

/-- Every operation is admitted in the state it meets. -/
def AdmittedAlong (step : State → Op → Response × State) (Admits : State → Op → Prop) :
    State → List Op → Prop
  | _, [] => True
  | s, op :: rest => Admits s op ∧ AdmittedAlong step Admits (step s op).2 rest

/-- `R` relates a state of a run to the one of the run without the operations of others. -/
structure Purges (step : State → Op → Response × State) (mine : Op → Bool)
    (Admits : State → Op → Prop) (R : State → State → Prop) : Prop where
  own : ∀ s s' op, R s s' → Admits s op → mine op →
    (step s' op).1 = (step s op).1 ∧ R (step s op).2 (step s' op).2
  others : ∀ s s' op, R s s' → Admits s op → ¬ mine op → R (step s op).2 s'

/-- The operations of others can be purged. -/
theorem Purges.answers_filter {step : State → Op → Response × State} {mine : Op → Bool}
    {Admits : State → Op → Prop} {R : State → State → Prop} (purges : Purges step mine Admits R)
    {s s' : State} {ops : List Op} (related : R s s') (admitted : AdmittedAlong step Admits s ops) :
    answers step mine s ops = answers step mine s' (ops.filter mine) := by
  induction ops generalizing s s' with
  | nil => rfl
  | cons op rest ih =>
      obtain ⟨admits, later⟩ := admitted
      by_cases own : mine op
      · obtain ⟨same, next⟩ := purges.own s s' op related admits own
        simp only [answers, own, if_true, List.filter_cons_of_pos, same, ih next later]
      · have next := purges.others s s' op related admits own
        simp only [answers, own, Bool.false_eq_true, if_false, not_false_eq_true,
          List.filter_cons_of_neg, ih next later]

/-- Separate views purge. -/
theorem Separates.purges {Owner : Type} [DecidableEq Owner] {step : State → Op → Response × State}
    {ownerOf : Op → Owner} {view : Owner → State → State} {Sound : State → Prop} {Admits : Op → Prop}
    (separates : Separates step ownerOf view Sound Admits) (own : Owner) :
    Purges step (fun op => ownerOf op = own) (fun _ op => Admits op)
      fun s s' => Sound s ∧ s' = view own s where
  own s s' op related admits mine := by
    obtain ⟨sound, rfl⟩ := related
    obtain rfl : ownerOf op = own := of_decide_eq_true mine
    rw [separates.seen s op sound admits]
    exact ⟨rfl, separates.kept s op sound admits, rfl⟩
  others s s' op related admits mine := by
    obtain ⟨sound, rfl⟩ := related
    have different : own ≠ ownerOf op := fun same => mine (decide_eq_true same.symm)
    exact ⟨separates.kept s op sound admits,
      (separates.others s op sound admits own different).symm⟩

/-! ### A service behind a guard -/

section Behind

variable {Guard Verdict Service Answer : Type} (guard : Guard → Op → Verdict × Guard)
  (passes : Verdict → Bool) (service : Service → Op → Answer × Service)

/-- What the guard refuses does not reach the service. -/
def behind (s : Guard × Service) (op : Op) : (Verdict × Option Answer) × Guard × Service :=
  let (verdict, after) := guard s.1 op
  if passes verdict then
    let (answer, served) := service s.2 op
    ((verdict, some answer), after, served)
  else ((verdict, none), after, s.2)

variable {guard passes service}

theorem behind_passed {s : Guard × Service} {op : Op} (passed : passes (guard s.1 op).1) :
    behind guard passes service s op = (((guard s.1 op).1, some (service s.2 op).1),
      (guard s.1 op).2, (service s.2 op).2) := by
  simp only [behind, if_pos passed]

theorem behind_refused {s : Guard × Service} {op : Op} (refused : ¬ passes (guard s.1 op).1) :
    behind guard passes service s op = (((guard s.1 op).1, none), (guard s.1 op).2, s.2) := by
  simp only [behind, if_neg refused]

variable {mine : Op → Bool} {AdmitsGuard : Guard → Op → Prop} {RGuard : Guard → Guard → Prop}
  {Admits : Service → Op → Prop} {R : Service → Service → Prop}

theorem Purges.behind (guards : Purges guard mine AdmitsGuard RGuard)
    (serves : Purges service mine Admits R) :
    Purges (behind guard passes service) mine (fun s op => AdmitsGuard s.1 op ∧ Admits s.2 op)
      fun s s' => RGuard s.1 s'.1 ∧ R s.2 s'.2 where
  own s s' op related admits own := by
    obtain ⟨sameVerdict, nextGuard⟩ := guards.own s.1 s'.1 op related.1 admits.1 own
    by_cases passed : passes (guard s.1 op).1
    · obtain ⟨sameAnswer, next⟩ := serves.own s.2 s'.2 op related.2 admits.2 own
      rw [behind_passed passed, behind_passed (sameVerdict ▸ passed), sameVerdict, sameAnswer]
      exact ⟨rfl, nextGuard, next⟩
    · rw [behind_refused passed, behind_refused (sameVerdict ▸ passed), sameVerdict]
      exact ⟨rfl, nextGuard, related.2⟩
  others s s' op related admits own := by
    have nextGuard := guards.others s.1 s'.1 op related.1 admits.1 own
    by_cases passed : passes (guard s.1 op).1
    · rw [behind_passed passed]
      exact ⟨nextGuard, serves.others s.2 s'.2 op related.2 admits.2 own⟩
    · rw [behind_refused passed]
      exact ⟨nextGuard, related.2⟩

end Behind

end TenantLibrary.Lib
