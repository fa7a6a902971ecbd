import Mathlib.Logic.Equiv.Basic
import TenantLibrary.Lib.Unwinding

/-!
Runs that cannot be told apart.

What a service keeps secret is what two runs may differ in while every response is the same.
`AnswersAlike` relates the states of the runs by what they may differ in; one step gives equal
responses and keeps the relation, and then whole runs do (`AnswersAlike.answers_eq`). A service
that stores secrets under names may choose them at will, as long as equal secrets have equal
names: `exists_renaming` takes the names of one run to those of the other.
-/

namespace TenantLibrary.Lib

/-! ### Runs side by side -/

section Runs

variable {State State' Op Op' Response : Type} {step : State → Op → Response × State}
  {step' : State' → Op' → Response × State'} {Related : State → State' → Prop}
  {Alike : Op → Op' → Prop}

/-- Alike operations on related states get the same response and leave related states. -/
def AnswersAlike (step : State → Op → Response × State) (step' : State' → Op' → Response × State')
    (Related : State → State' → Prop) (Alike : Op → Op' → Prop) : Prop :=
  ∀ s s' op op', Related s s' → Alike op op' →
    (step s op).1 = (step' s' op').1 ∧ Related (step s op).2 (step' s' op').2

/-- Two runs side by side get the same responses. -/
theorem AnswersAlike.answers_eq (alike : AnswersAlike step step' Related Alike) {s : State}
    {s' : State'} {ops : List (Op × Op')} (related : Related s s')
    (each : ∀ pair ∈ ops, Alike pair.1 pair.2) :
    answers step (fun _ => true) s (ops.map Prod.fst) =
      answers step' (fun _ => true) s' (ops.map Prod.snd) := by
  induction ops generalizing s s' with
  | nil => rfl
  | cons pair rest ih =>
      obtain ⟨here, later⟩ := List.forall_mem_cons.mp each
      obtain ⟨same, next⟩ := alike s s' pair.1 pair.2 related here
      simp only [List.map_cons, answers, if_true, same, ih next later]

/-- Two runs side by side end in related states. -/
theorem AnswersAlike.related_final (alike : AnswersAlike step step' Related Alike) {s : State}
    {s' : State'} {ops : List (Op × Op')} (related : Related s s')
    (each : ∀ pair ∈ ops, Alike pair.1 pair.2) :
    Related (final step s (ops.map Prod.fst)) (final step' s' (ops.map Prod.snd)) := by
  induction ops generalizing s s' with
  | nil => exact related
  | cons pair rest ih =>
      obtain ⟨here, later⟩ := List.forall_mem_cons.mp each
      obtain ⟨_, next⟩ := alike s s' pair.1 pair.2 related here
      exact ih next later

end Runs

/-! ### Names -/

/-- Names that are equal where their partners are can be exchanged for them one to one. -/
theorem exists_renaming {α : Type} [DecidableEq α] {pairs : List (α × α)}
    (matched : ∀ p ∈ pairs, ∀ q ∈ pairs, p.1 = q.1 ↔ p.2 = q.2) :
    ∃ ρ : Equiv.Perm α, ∀ p ∈ pairs, ρ p.1 = p.2 := by
  induction pairs with
  | nil => exact ⟨Equiv.refl α, fun p mem => absurd mem List.not_mem_nil⟩
  | cons first rest ih =>
      obtain ⟨ρ, renames⟩ := ih fun p mem q mem' =>
        matched p (List.mem_cons_of_mem _ mem) q (List.mem_cons_of_mem _ mem')
      -- exchange what `ρ` makes of the new name for its partner
      refine ⟨ρ.trans (Equiv.swap (ρ first.1) first.2), ?_⟩
      intro p mem
      rw [Equiv.trans_apply]
      by_cases same : p.1 = first.1
      · rw [same, Equiv.swap_apply_left]
        exact ((matched p mem first List.mem_cons_self).mp same).symm
      · have older : p ∈ rest := by
          rcases List.mem_cons.mp mem with rfl | older
          · exact absurd rfl same
          · exact older
        have other : p.2 ≠ first.2 := by
          intro partners
          exact same ((matched p mem first List.mem_cons_self).mpr partners)
        have moved : ρ p.1 ≠ ρ first.1 := fun names => same (ρ.injective names)
        rw [renames p older] at moved ⊢
        exact Equiv.swap_apply_of_ne_of_ne moved other

end TenantLibrary.Lib
