import Mathlib.Data.List.TakeWhile

/-!
Lists cut at the first occurrence of a symbol.

`append_cons_inj` says that there is one way to do it.
-/

namespace TenantLibrary.Lib

variable {α : Type*}

/-- What `takeWhile` takes, and what is left after as many symbols. -/
theorem takeWhile_append_drop (p : α → Bool) (xs : List α) :
    xs.takeWhile p ++ xs.drop (xs.takeWhile p).length = xs :=
  List.prefix_iff_eq_append.mp (List.takeWhile_prefix p)

variable [DecidableEq α] {a : α} {before before' after after' : List α}

theorem notMem_takeWhile {xs : List α} : a ∉ xs.takeWhile (· ≠ a) := by
  intro mem
  have other := List.mem_takeWhile_imp mem
  exact absurd rfl (of_decide_eq_true other)

theorem ne_of_mem_before (first : a ∉ before) : ∀ b ∈ before, decide (b ≠ a) = true := by
  rintro b mem
  exact decide_eq_true fun same => first (same ▸ mem)

theorem takeWhile_append_cons (first : a ∉ before) :
    (before ++ a :: after).takeWhile (· ≠ a) = before := by
  rw [List.takeWhile_append_of_pos (ne_of_mem_before first)]
  simp

theorem dropWhile_append_cons (first : a ∉ before) :
    (before ++ a :: after).dropWhile (· ≠ a) = a :: after := by
  rw [List.dropWhile_append_of_pos (ne_of_mem_before first)]
  simp

/-- Lists taken apart at the first occurrence of a symbol are equal part by part. -/
theorem append_cons_inj (first : a ∉ before) (first' : a ∉ before') :
    before ++ a :: after = before' ++ a :: after' ↔ before = before' ∧ after = after' := by
  constructor
  · intro same
    have taken := congrArg (List.takeWhile (· ≠ a)) same
    rw [takeWhile_append_cons first, takeWhile_append_cons first'] at taken
    subst taken
    exact ⟨rfl, (List.cons.inj (List.append_cancel_left same)).2⟩
  · rintro ⟨rfl, rfl⟩
    rfl

end TenantLibrary.Lib
